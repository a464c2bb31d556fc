import StepSequencer.Proofs.Host.Memory

/-!
# Files that a host refuses

A host reads a whole file before it stores anything, so a file with a faulty record leaves no trace.
The one thing that is not known from reading alone is whether the data of a record fits into the
memory. It is checked record by record, and the first that goes beyond the last address ends the
loading: it and all behind it are left out, and what stands before it stays stored.
-/
namespace StepSequencer

namespace IntelHex

/-- Data that does not go beyond the memory of a host. -/
def Chunk.Fits (chunk : Chunk) : Prop := chunk.address + chunk.data.length ≤ memorySize

/-- Whether data fits can be computed. -/
instance (chunk : Chunk) : Decidable chunk.Fits := Nat.decLe ..

/-- Records have addresses of two bytes. -/
theorem readPayload_address {payload : List UInt8} {chunk : Chunk}
    (found : readPayload payload = .ok (.data chunk)) : chunk.address < memorySize := by
  have space : memorySize = 0x10000 := rfl
  unfold readPayload at found
  split at found
  · next count high low type data =>
    have upper : high.toNat < 256 := high.toNat_lt
    have lower : low.toNat < 256 := low.toNat_lt
    split at found
    · contradiction
    · split at found
      · contradiction
      · split at found
        · have kinds := Except.ok.inj found
          contradiction
        · split at found
          · contradiction
          · obtain rfl := Line.data.inj (Except.ok.inj found)
            show high.toNat * 256 + low.toNat < memorySize
            omega
  · contradiction

/-- Data of a line starts in the memory of a host. -/
theorem readLine_address {line : List Char} {chunk : Chunk}
    (found : readLine line = .ok (.data chunk)) : chunk.address < memorySize := by
  unfold readLine at found
  split at found
  · have kinds := Except.ok.inj found
    contradiction
  · split at found
    · contradiction
    · exact readPayload_address found
  · contradiction

/-- All data of a file starts in the memory of a host. -/
theorem readLines_address {number : Nat} {lines : List (List Char)} {chunks : List Chunk}
    (found : readLines number lines = .ok chunks) :
    ∀ chunk ∈ chunks, chunk.address < memorySize := by
  fun_induction readLines number lines generalizing chunks with
  | case1 =>
    obtain rfl := Except.ok.inj found
    exact List.forall_mem_nil _
  | case2 => contradiction
  | case3 =>
    obtain rfl := Except.ok.inj found
    exact List.forall_mem_nil _
  | case4 number line lines blank ih => exact ih found
  | case5 number line lines first read ih =>
    cases later : readLines (number + 1) lines with
    | error fault =>
      rw [later] at found
      contradiction
    | ok others =>
      rw [later] at found
      obtain rfl := Except.ok.inj found
      exact List.forall_mem_cons.mpr ⟨readLine_address read, ih later⟩

end IntelHex

namespace Host

/-- Hosts with the same byte at every address are the same. -/
theorem eq_of_peek {left right : Host} (leftSized : left.memory.size = memorySize)
    (rightSized : right.memory.size = memorySize)
    (same : ∀ address, inMemory address = true → left.peek address = right.peek address) :
    left = right := by
  have space : memorySize = 0x10000 := rfl
  have bytes : left.memory = right.memory := by
    apply Array.ext
    · rw [leftSized, rightSized]
    · intro place first second
      have inside : inMemory (place : Int) = true := inMemory_iff.mpr (by omega)
      have here := same place inside
      simpa [peek, inside, first, second] using here
  cases left
  cases right
  exact congrArg Host.mk bytes

/-- Stores change nothing exactly when the last one at every address stores what is there. -/
theorem putStores_eq_self_iff {host : Host} (sized : host.memory.size = memorySize)
    (stores : List Store) :
    host.putStores stores = host ↔
      ∀ address value, inMemory address = true → Store.last? stores address = some value →
        host.peek address = byteOf value := by
  constructor
  · intro same address value inside last
    have byte := peek_putStores sized stores inside
    rw [same, last] at byte
    exact byte
  · intro there
    apply eq_of_peek (by rw [size_putStores, sized]) sized
    intro address inside
    rw [peek_putStores sized stores inside]
    cases last : Store.last? stores address with
    | none => rfl
    | some value => exact (there address value inside last).symm

/-- A chunk that goes beyond the memory is refused as a whole. -/
theorem loadChunk_overlong (host : Host) (count : Nat) {chunk : IntelHex.Chunk}
    (starts : chunk.address < memorySize) (overlong : ¬chunk.Fits) :
    loadChunk (host, .ok count) chunk =
      (host, .error (.image chunk.data.length chunk.address)) := by
  have space : memorySize = 0x10000 := rfl
  have beyond : memorySize < chunk.address + chunk.data.length := Nat.lt_of_not_le overlong
  have refused : host.loadImage chunk.address chunk.data =
      .error (.image chunk.data.length chunk.address) := by
    rw [loadImage, inMemory_iff.mpr (by omega), Bool.not_true, if_neg (by decide),
      if_pos (by omega)]
  rw [loadChunk, refused, settle]

/-- Behind a refused chunk nothing is stored. -/
theorem foldl_loadChunk_error (host : Host) (fault : HostFault) (chunks : List IntelHex.Chunk) :
    chunks.foldl loadChunk (host, .error fault) = (host, .error fault) := by
  induction chunks with
  | nil => rfl
  | cons chunk chunks ih => exact ih

/-- Either all chunks fit, or there is a first that does not. -/
theorem first_overlong (chunks : List IntelHex.Chunk) :
    (∀ chunk ∈ chunks, chunk.Fits) ∨
      ∃ loaded overlong rest, chunks = loaded ++ overlong :: rest ∧
        (∀ chunk ∈ loaded, chunk.Fits) ∧ ¬overlong.Fits := by
  induction chunks with
  | nil => exact .inl (List.forall_mem_nil _)
  | cons chunk chunks ih =>
    by_cases fits : chunk.Fits
    · rcases ih with all | ⟨loaded, overlong, rest, rfl, before, beyond⟩
      · exact .inl (List.forall_mem_cons.mpr ⟨fits, all⟩)
      · exact .inr ⟨chunk :: loaded, overlong, rest, rfl,
          List.forall_mem_cons.mpr ⟨fits, before⟩, beyond⟩
    · exact .inr ⟨[], chunk, chunks, rfl, List.forall_mem_nil _, fits⟩

/-- Loading chunks ends at the first that goes beyond the memory, with those before it stored. -/
theorem loadChunks_overlong {host : Host} (sized : host.memory.size = memorySize)
    {loaded rest : List IntelHex.Chunk} {overlong : IntelHex.Chunk}
    (starts : ∀ chunk ∈ loaded ++ overlong :: rest, chunk.address < memorySize)
    (fits : ∀ chunk ∈ loaded, chunk.Fits) (beyond : ¬overlong.Fits) :
    host.loadChunks (loaded ++ overlong :: rest) =
      (host.putStores (loaded.flatMap IntelHex.Chunk.stores),
        .error (.image overlong.data.length overlong.address)) := by
  have front : ∀ chunk ∈ loaded, chunk.address < memorySize ∧
      chunk.address + chunk.data.length ≤ memorySize := fun chunk member =>
    ⟨starts chunk (List.mem_append_left _ member), fits chunk member⟩
  have here := starts overlong (List.mem_append_right _ List.mem_cons_self)
  rw [loadChunks, List.foldl_append, foldl_loadChunk_fits sized 0 front, List.foldl_cons,
    loadChunk_overlong _ _ here beyond, foldl_loadChunk_error]

/-- A refused file has left the memory as it was, unless all its records could be read and one of
them goes beyond the memory. Then the data before the first of these is stored and nothing else, so
the memory is as it was exactly when that data was there already. -/
theorem memory_of_refused {host final : Host} (sized : host.memory.size = memorySize)
    {text : String} {fault : HostFault} (refused : host.loadFile text = (final, .error fault)) :
    (∃ defect, IntelHex.read text.toList = .error defect ∧ fault = .file defect ∧ final = host) ∨
      ∃ loaded overlong rest,
        IntelHex.read text.toList = .ok (loaded ++ overlong :: rest) ∧
        (∀ chunk ∈ loaded, chunk.Fits) ∧ ¬overlong.Fits ∧
        fault = .image overlong.data.length overlong.address ∧
        final = host.putStores (loaded.flatMap IntelHex.Chunk.stores) ∧
        (final = host ↔ ∀ address value, inMemory address = true →
          Store.last? (loaded.flatMap IntelHex.Chunk.stores) address = some value →
            host.peek address = byteOf value) := by
  rw [loadFile] at refused
  cases read : IntelHex.read text.toList with
  | error defect =>
    rw [read] at refused
    obtain ⟨rfl, same⟩ := Prod.mk.inj refused
    exact .inl ⟨defect, rfl, (Except.error.inj same).symm, rfl⟩
  | ok chunks =>
    rw [read] at refused
    dsimp only at refused
    have starts : ∀ chunk ∈ chunks, chunk.address < memorySize := IntelHex.readLines_address read
    rcases first_overlong chunks with all | ⟨loaded, overlong, rest, rfl, fits, beyond⟩
    · have stored : host.loadChunks chunks = _ :=
        foldl_loadChunk_fits sized 0 fun chunk member => ⟨starts chunk member, all chunk member⟩
      rw [stored] at refused
      have answers := (Prod.mk.inj refused).2
      contradiction
    · rw [loadChunks_overlong sized starts fits beyond] at refused
      obtain ⟨rfl, same⟩ := Prod.mk.inj refused
      exact .inr ⟨loaded, overlong, rest, rfl, fits, beyond, (Except.error.inj same).symm, rfl,
        putStores_eq_self_iff sized _⟩

/-- A byte for the first address of the audio region, and two bytes for the last address of all. -/
def overlongFile : String := ":0110000005EA\n:02FFFF000102FD\n:00000001FF\n"

/-- The file is read as its two pieces of data. -/
theorem read_overlongFile :
    IntelHex.read overlongFile.toList = .ok ([⟨0x1000, [5]⟩] ++ ⟨0xFFFF, [1, 2]⟩ :: []) := by
  rfl

/-- The first of the two records is stored by any host before it refuses the second. -/
theorem loadFile_overlongFile {host : Host} (sized : host.memory.size = memorySize) :
    host.loadFile overlongFile =
      (host.putStores [(0x1000, 5)], .error (.image 2 0xFFFF)) := by
  rw [loadFile, read_overlongFile]
  exact loadChunks_overlong sized (by decide) (by decide) (by decide)

/-- The first piece of data changes the memory if it is loaded on its own. -/
theorem peek_overlongFile :
    ((start 120).putStores [(0x1000, 5)]).peek 0x1000 = 5 ∧ (start 120).peek 0x1000 = 0 := by
  have inside : inMemory 0x1000 = true := by decide
  rw [peek_putStores (size_start 120) _ inside, peek_start 120 inside]
  decide

/-- The refused file leaves a byte in a fresh host that was not there. -/
theorem loadFile_refused_ne :
    ∃ final fault, (start 120).loadFile overlongFile = (final, .error fault) ∧
      final ≠ start 120 := by
  refine ⟨_, _, loadFile_overlongFile (size_start 120), fun same => ?_⟩
  have stored := peek_overlongFile.1
  rw [same, peek_overlongFile.2] at stored
  exact absurd stored (by decide)

/-- The data before the record that goes beyond the memory is what a fresh host keeps of it. -/
theorem memory_of_refused_overlong :
    ∃ loaded overlong rest,
      IntelHex.read overlongFile.toList = .ok (loaded ++ overlong :: rest) ∧ ¬overlong.Fits ∧
        HostFault.image 2 0xFFFF = .image overlong.data.length overlong.address ∧
        (start 120).putStores [(0x1000, 5)] =
          (start 120).putStores (loaded.flatMap IntelHex.Chunk.stores) := by
  rcases memory_of_refused (size_start 120) (loadFile_overlongFile (size_start 120)) with
    ⟨defect, _, other, _⟩ | ⟨loaded, overlong, rest, read, _, beyond, same, stored, _⟩
  · contradiction
  · exact ⟨loaded, overlong, rest, read, beyond, same, stored⟩

end Host

end StepSequencer
