import StepSequencer.Host
import StepSequencer.Proofs.IntelHex.RoundTrip

/-!
# The memory of a host after loading

Every way of loading is a sequence of stores, so a loaded byte is that of the last store at its
address, and every other byte is as before. The laws stand for hosts whose memory has its full
size, which all operations keep.
-/
namespace StepSequencer.Host

/-- The bounds of the memory. -/
theorem inMemory_iff {address : Int} :
    inMemory address = true ↔ 0 ≤ address ∧ address < 0x10000 := decide_eq_true_iff

/-- The audio region is memory. -/
theorem inMemory_of_inRegion {address : Int} (inside : inRegion address = true) :
    inMemory address = true := by
  have range := inRegion_iff.mp inside
  exact inMemory_iff.mpr (by omega)

/-- A byte that was put is found at its address, and nowhere else. -/
theorem peek_put {host : Host} (sized : host.memory.size = memorySize) (address : Int)
    (byte : UInt8) {other : Int} (inside : inMemory other = true) :
    (host.put address byte).peek other = if address = other then byte else host.peek other := by
  have size : memorySize = 0x10000 := rfl
  have range := inMemory_iff.mp inside
  simp only [peek, inside, if_true, Array.getD_eq_getD_getElem?]
  unfold put
  split
  · next within =>
    have bounds := inMemory_iff.mp within
    rw [Array.getElem?_setIfInBounds]
    by_cases here : address = other
    · rw [if_pos here, if_pos (by omega), if_pos (by omega)]
      rfl
    · rw [if_neg here, if_neg (by omega)]
  · next beyond =>
    rw [if_neg]
    rintro rfl
    exact beyond inside

/-- The bytes of a fresh host: its tempo, and zeros elsewhere. -/
theorem peek_start (tempo : Int) {address : Int} (inside : inMemory address = true) :
    (start tempo).peek address = if Register.tempo = address then byteOf tempo else 0 := by
  have range := inMemory_iff.mp inside
  have size : memorySize = 0x10000 := rfl
  have zero : peek ⟨Array.replicate memorySize 0⟩ address = 0 := by
    simp only [peek, inside, if_true, Array.getD_eq_getD_getElem?]
    rw [Array.getElem?_replicate, if_pos (by omega)]
    rfl
  have sized : (Host.mk (Array.replicate memorySize 0)).memory.size = memorySize :=
    Array.size_replicate ..
  rw [start, peek_put sized _ _ inside, zero]

/-- Stores made one after the other. -/
def putStores (host : Host) (stores : List Store) : Host :=
  stores.foldl (fun host store => host.put store.1 (byteOf store.2)) host

/-- The first of the stores is made first. -/
theorem putStores_cons (host : Host) (store : Store) (stores : List Store) :
    host.putStores (store :: stores) =
      (host.put store.1 (byteOf store.2)).putStores stores := rfl

/-- Stores keep the size of the memory. -/
@[simp] theorem size_putStores (host : Host) (stores : List Store) :
    (host.putStores stores).memory.size = host.memory.size := by
  induction stores generalizing host with
  | nil => rfl
  | cons store stores ih => exact (ih _).trans (size_put ..)

/-- Stores into memory are all made. -/
theorem loadStores_eq_putStores (host : Host) (count : Nat) {stores : List Store}
    (within : ∀ store ∈ stores, inMemory store.1 = true) :
    host.loadStores count (stores.map .ok) =
      (host.putStores stores, .ok (count + stores.length)) := by
  induction stores generalizing host count with
  | nil => rfl
  | cons store stores ih =>
    have first := within store List.mem_cons_self
    have rest := ih (host.put store.1 (byteOf store.2)) (count + 1) fun other member =>
      within other (List.mem_cons_of_mem store member)
    have total : count + 1 + stores.length = count + (store :: stores).length := by
      rw [List.length_cons]
      omega
    rw [List.map_cons, loadStores, if_pos first, rest, total]
    rfl

/-- If loading stores does not fail, all of them were made. -/
theorem eq_putStores_of_loadStores {host final : Host} {count total : Nat} {stores : List Store}
    (loaded : host.loadStores count (stores.map .ok) = (final, .ok total)) :
    final = host.putStores stores := by
  induction stores generalizing host count with
  | nil => exact (congrArg Prod.fst loaded).symm
  | cons store stores ih =>
    rw [List.map_cons, loadStores] at loaded
    split at loaded
    · exact ih loaded
    · exact nomatch congrArg Prod.snd loaded

/-- Instructions whose stores lie in the region are all loaded. -/
theorem loadInstructions_eq_putStores (host : Host) {instructions : List Instruction}
    (inside : ∀ store ∈ Instruction.stores instructions, inRegion store.1 = true) :
    host.loadInstructions instructions =
      (host.putStores (Instruction.stores instructions),
        .ok (Instruction.stores instructions).length) := by
  rw [loadInstructions, loadStores_eq_putStores host 0 fun store member =>
    inMemory_of_inRegion (inside store member), Nat.zero_add]

/-- A place to which no store goes is left alone. -/
theorem getElem?_putStores (host : Host) {stores : List Store} {place : Nat}
    (elsewhere : ∀ store ∈ stores, store.1 ≠ place) :
    (host.putStores stores).memory[place]? = host.memory[place]? := by
  induction stores generalizing host with
  | nil => rfl
  | cons store stores ih =>
    obtain ⟨first, rest⟩ := List.forall_mem_cons.mp elsewhere
    refine (ih (host.put store.1 (byteOf store.2)) rest).trans ?_
    unfold put
    split
    · next within =>
      have bounds := inMemory_iff.mp within
      exact Array.getElem?_setIfInBounds_ne (by omega)
    · rfl

/-- A byte is that of the last store at its address. -/
theorem peek_putStores {host : Host} (sized : host.memory.size = memorySize) (stores : List Store)
    {address : Int} (inside : inMemory address = true) :
    (host.putStores stores).peek address =
      ((Store.last? stores address).map byteOf).getD (host.peek address) := by
  induction stores generalizing host with
  | nil => rfl
  | cons store stores ih =>
    have kept : (host.put store.1 (byteOf store.2)).memory.size = memorySize := by
      rw [size_put, sized]
    refine (ih kept).trans ?_
    rw [peek_put sized _ _ inside, Store.last?]
    cases Store.last? stores address with
    | some value => rfl
    | none => split <;> rfl

/-- Stores in two parts are made one part after the other. -/
theorem putStores_append (host : Host) (first second : List Store) :
    host.putStores (first ++ second) = (host.putStores first).putStores second :=
  List.foldl_append

/-- Hosts with the same bytes are the same. -/
theorem eq_of_toList {left right : Host} (same : left.memory.toList = right.memory.toList) :
    left = right :=
  congrArg Host.mk (Array.toList_inj.mp same)

/-- Splicing keeps what is in front of the bytes and what is behind as many others. -/
theorem toList_splice (host : Host) (base : Nat) (data : List UInt8) :
    (host.splice base data).memory.toList =
      host.memory.toList.take base ++ data ++ host.memory.toList.drop (base + data.length) := by
  have rest : (host.memory.toList.drop (base + data.length)).take
      (host.memory.size - (base + data.length)) = host.memory.toList.drop (base + data.length) :=
    List.take_of_length_le (Nat.le_of_eq List.length_drop)
  simp [splice, rest]

/-- Putting in no bytes changes nothing. -/
theorem splice_nil (host : Host) (base : Nat) : host.splice base [] = host := by
  apply eq_of_toList
  rw [toList_splice, List.length_nil, Nat.add_zero, List.append_nil, List.take_append_drop]

/-- The first of the spliced bytes is a store, and the others are spliced behind it. -/
theorem splice_cons (host : Host) {base : Nat} (byte : UInt8) (bytes : List UInt8)
    (inside : inMemory base = true) (room : base < host.memory.toList.length) :
    host.splice base (byte :: bytes) = (host.put base byte).splice (base + 1) bytes := by
  have stored : (host.put base byte).memory.toList = host.memory.toList.set base byte := by
    rw [put, if_pos inside, Int.toNat_natCast, Array.toList_setIfInBounds]
  apply eq_of_toList
  rw [toList_splice, toList_splice, stored, List.drop_set_of_lt (by omega),
    List.take_succ_eq_append_getElem (by simpa using room), List.getElem_set_self,
    List.take_set_of_le (Nat.le_refl base), List.length_cons]
  simp [Nat.add_assoc, Nat.add_comm 1]

/-- Bytes that fit are spliced as stores in a row. -/
theorem splice_eq_putStores {host : Host} (sized : host.memory.size = memorySize) {base : Nat}
    {data : List UInt8} (fits : base + data.length ≤ memorySize) :
    host.splice base data =
      host.putStores (Store.row base (data.map fun b => (b.toNat : Int))) := by
  have space : memorySize = 0x10000 := rfl
  induction data generalizing host base with
  | nil => exact splice_nil host base
  | cons byte bytes ih =>
    rw [List.length_cons] at fits
    have kept : (host.put base byte).memory.size = memorySize := by rw [size_put, sized]
    have room : base < host.memory.toList.length := by
      rw [Array.length_toList]
      omega
    have rest := ih kept (show base + 1 + bytes.length ≤ memorySize by omega)
    rw [splice_cons host byte bytes (inMemory_iff.mpr (by omega)) room, rest, List.map_cons,
      Store.row, putStores_cons, byteOf_toNat, Int.natCast_succ]

/-- An image that fits is stored. -/
theorem loadImage_fits {host : Host} (sized : host.memory.size = memorySize) {base : Nat}
    {data : List UInt8} (starts : base < memorySize) (ends : base + data.length ≤ memorySize) :
    host.loadImage base data =
      .ok (host.putStores (Store.row base (data.map fun b => (b.toNat : Int)))) := by
  have space : memorySize = 0x10000 := rfl
  rw [loadImage, inMemory_iff.mpr (by omega), Bool.not_true, if_neg (by decide),
    if_neg (by omega), Int.toNat_natCast, splice_eq_putStores sized ends]

/-- A chunk that ends inside the memory is stored and its bytes are counted. -/
theorem loadChunk_fits {host : Host} (sized : host.memory.size = memorySize) (count : Nat)
    {chunk : IntelHex.Chunk} (starts : chunk.address < memorySize)
    (ends : chunk.address + chunk.data.length ≤ memorySize) :
    loadChunk (host, .ok count) chunk =
      (host.putStores chunk.stores, .ok (count + chunk.data.length)) := by
  rw [loadChunk, loadImage_fits sized starts ends, settle]
  rfl

/-- Chunks that end inside the memory are all stored, in order. -/
theorem foldl_loadChunk_fits {host : Host} (sized : host.memory.size = memorySize) (count : Nat)
    {chunks : List IntelHex.Chunk} (within : ∀ chunk ∈ chunks, chunk.address < memorySize ∧
      chunk.address + chunk.data.length ≤ memorySize) :
    chunks.foldl loadChunk (host, .ok count) =
      (host.putStores (chunks.flatMap IntelHex.Chunk.stores),
        .ok (count + (chunks.flatMap IntelHex.Chunk.data).length)) := by
  induction chunks generalizing host count with
  | nil => rfl
  | cons chunk chunks ih =>
    have first := within chunk List.mem_cons_self
    have kept : (host.putStores chunk.stores).memory.size = memorySize := by
      rw [size_putStores, sized]
    have rest := ih kept (count + chunk.data.length)
      fun other member => within other (List.mem_cons_of_mem chunk member)
    rw [List.foldl_cons, loadChunk_fits sized count first.1 first.2, rest, List.flatMap_cons,
      List.flatMap_cons, putStores_append, List.length_append, Nat.add_assoc]

/-- A file whose data ends inside the memory is loaded, and a byte is that of the last store of its
data at its address. -/
theorem loadFile_inside {host : Host} (sized : host.memory.size = memorySize) {text : String}
    {chunks : List IntelHex.Chunk} (readable : IntelHex.read text.toList = .ok chunks)
    (within : ∀ chunk ∈ chunks, chunk.address < memorySize ∧
      chunk.address + chunk.data.length ≤ memorySize) :
    ∃ loaded total, host.loadFile text = (loaded, .ok total) ∧
      loaded.memory.size = memorySize ∧
      ∀ address, inMemory address = true →
        loaded.peek address =
          ((Store.last? (chunks.flatMap IntelHex.Chunk.stores) address).map byteOf).getD
            (host.peek address) := by
  have loaded : host.loadFile text =
      (host.putStores (chunks.flatMap IntelHex.Chunk.stores),
        .ok (0 + (chunks.flatMap IntelHex.Chunk.data).length)) := by
    rw [loadFile, readable]
    exact foldl_loadChunk_fits sized 0 within
  have size : (host.putStores (chunks.flatMap IntelHex.Chunk.stores)).memory.size = memorySize := by
    rw [size_putStores, sized]
  exact ⟨_, _, loaded, size, fun address inside => peek_putStores sized _ inside⟩

/-- The audio region can be read from every host. -/
theorem slice_region (host : Host) : host.slice regionStart regionSize =
    .ok (host.memory.extract 0x1000 0x1600).toList := by
  rw [slice, inMemory_of_inRegion (by decide), Bool.not_true, if_neg (by decide),
    if_neg (by decide)]
  rfl

/-- A place in the audio region holds the byte at its address. -/
theorem getElem?_extract_region {host : Host} (sized : host.memory.size = memorySize) {place : Nat}
    (inside : place < 0x600) :
    (host.memory.extract 0x1000 0x1600)[place]? = some (host.peek (0x1000 + place)) := by
  have space : memorySize = 0x10000 := rfl
  have address : ((0x1000 : Int) + place).toNat = 0x1000 + place := by omega
  rw [Array.getElem?_extract, if_pos (by omega), peek, if_pos (inMemory_iff.mpr (by omega)),
    Array.getD_eq_getD_getElem?, address,
    Array.getElem?_eq_getElem (show 0x1000 + place < host.memory.size by omega)]
  rfl

/-- Two hosts have the same bytes in a slice of the audio region exactly when they have the same
byte at each of its addresses. -/
theorem slice_region_eq_iff {left right : Host} (leftSized : left.memory.size = memorySize)
    (rightSized : right.memory.size = memorySize) :
    left.slice regionStart regionSize = right.slice regionStart regionSize ↔
      ∀ address, inRegion address = true → left.peek address = right.peek address := by
  have space : memorySize = 0x10000 := rfl
  rw [slice_region, slice_region]
  constructor
  · intro same address inside
    have range := inRegion_iff.mp inside
    obtain ⟨place, split⟩ := Int.eq_ofNat_of_zero_le (show 0 ≤ address - 0x1000 by omega)
    have whole : address = 0x1000 + place := by omega
    have arrays := Array.toList_inj.mp (Except.ok.inj same)
    have bytes := congrArg (fun bytes => bytes[place]?) arrays
    rw [getElem?_extract_region leftSized (by omega),
      getElem?_extract_region rightSized (by omega)] at bytes
    rw [whole]
    exact Option.some.inj bytes
  · intro same
    have arrays : left.memory.extract 0x1000 0x1600 = right.memory.extract 0x1000 0x1600 := by
      apply Array.ext_getElem?
      intro place
      by_cases inside : place < 0x600
      · rw [getElem?_extract_region leftSized inside, getElem?_extract_region rightSized inside,
          same _ (inRegion_iff.mpr (by omega))]
      · rw [Array.getElem?_eq_none (by simp; omega), Array.getElem?_eq_none (by simp; omega)]
    rw [arrays]

end StepSequencer.Host
