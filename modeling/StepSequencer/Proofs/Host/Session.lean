import StepSequencer.Host.Session
import StepSequencer.Proofs.Host.Memory

/-!
# What a session keeps

No operation changes the size of the memory, whether it is carried out or refused. A store changes
a byte in its place. An image is spliced into the memory, which keeps the size because the image was
checked to end inside. So the memory of a host has its full size throughout a session.

An operation that is refused has changed nothing, unless it loads the writes of records or a file.
These two load piece by piece and keep the pieces before the refused one. Steps are stored one by
one, too, but all sixteen places of every voice are memory, so once the voice is known no store is
refused.
-/
namespace StepSequencer.Host

variable {host : Host}

/-! ### The size of the memory -/

/-- Splicing keeps the size if the bytes end inside the memory. -/
theorem size_splice {base : Nat} {data : List UInt8}
    (fits : base + data.length ≤ host.memory.size) :
    (host.splice base data).memory.size = host.memory.size := by
  have length := congrArg List.length (toList_splice host base data)
  rw [List.length_append, List.length_append, List.length_take, List.length_drop,
    Array.length_toList, Array.length_toList] at length
  omega

/-- A write that is carried out keeps the size of the memory. -/
theorem size_of_write {address value : Int} {next : Host}
    (stored : host.write address value = .ok next) : next.memory.size = host.memory.size := by
  unfold write at stored
  split at stored
  · obtain rfl := Except.ok.inj stored
    exact size_put ..
  · contradiction

/-- An image that is loaded keeps the size of the memory, because it does not go beyond it. -/
theorem size_of_loadImage (sized : host.memory.size = memorySize) {base : Int} {data : List UInt8}
    {next : Host} (stored : host.loadImage base data = .ok next) :
    next.memory.size = memorySize := by
  unfold loadImage at stored
  split at stored
  · contradiction
  · next starts =>
    split at stored
    · contradiction
    · next ends =>
      have bounds := inMemory_iff.mp (by simpa using starts)
      obtain rfl := Except.ok.inj stored
      rw [size_splice (by omega), sized]

/-- Loading stores keeps the size of the memory, also if one of them is faulty. -/
theorem size_loadStores (count : Nat) (stores : List (Except OperandFault Store)) :
    (host.loadStores count stores).1.memory.size = host.memory.size := by
  fun_induction loadStores host count stores with
  | case1 => rfl
  | case2 => rfl
  | case3 host count address value rest inside ih => rw [ih, size_put]
  | case4 => rfl

/-- Loading steps keeps the size of the memory, also if the voice is refused. -/
theorem size_loadSteps (place : Int) (values : List Int) :
    (host.loadSteps place values).1.memory.size = host.memory.size := by
  unfold loadSteps
  split
  · rfl
  · exact size_loadStores 0 _

/-- Chunks are loaded without a change of size, up to a refusal and behind it. -/
theorem size_foldl_loadChunk (chunks : List IntelHex.Chunk)
    {before : Host × Except HostFault Nat} (sized : before.1.memory.size = memorySize) :
    (chunks.foldl loadChunk before).1.memory.size = memorySize := by
  induction chunks generalizing before with
  | nil => exact sized
  | cons chunk chunks ih =>
    apply ih
    obtain ⟨host, outcome⟩ := before
    cases outcome with
    | error fault => exact sized
    | ok count =>
      rw [loadChunk]
      cases stored : host.loadImage chunk.address chunk.data with
      | error fault => exact sized
      | ok next => exact size_of_loadImage sized stored

/-- Loading a file keeps the size of the memory, also if the file is refused. -/
theorem size_loadFile (sized : host.memory.size = memorySize) (text : String) :
    (host.loadFile text).1.memory.size = memorySize := by
  unfold loadFile
  split
  · exact sized
  · exact size_foldl_loadChunk _ sized

/-- A tick keeps the size of the memory. -/
theorem size_tick : host.tick.1.memory.size = host.memory.size := by
  unfold tick
  split
  · rw [advance]
    split
    · rw [stop, size_put, size_put]
    · exact size_put ..
  · rfl

/-- An operation keeps the size of the memory, whether it is carried out or refused. -/
theorem size_perform (sized : host.memory.size = memorySize) (operation : Operation) :
    (host.perform operation).1.memory.size = memorySize := by
  cases operation with
  | read address => exact sized
  | slice start length => exact sized
  | write address value | poke address value =>
    rw [perform]
    cases stored : host.write address value with
    | error fault => exact sized
    | ok next => exact (size_of_write stored).trans sized
  | loadImage base data =>
    rw [perform]
    cases stored : host.loadImage base data with
    | error fault => exact sized
    | ok next => exact size_of_loadImage sized stored
  | loadRecords records => exact (size_loadStores 0 _).trans sized
  | loadFile text => exact size_loadFile sized text
  | loadSteps place values => exact (size_loadSteps place values).trans sized
  | play | stop | setTempo bpm => exact (size_put ..).trans sized
  | reset => exact ((size_put ..).trans (size_put ..)).trans sized
  | tick => exact size_tick.trans sized

/-- Through a whole session the memory keeps its size. -/
theorem size_run (sized : host.memory.size = memorySize) (operations : List Operation) :
    (host.run operations).memory.size = memorySize := by
  induction operations generalizing host with
  | nil => exact sized
  | cons operation operations ih => exact ih (size_perform sized operation)

/-! ### Refused operations -/

/-- Whether an operation loads piece by piece and keeps what stands before a refused piece. -/
def Operation.isPiecewise : Operation → Bool
  | loadRecords _ | loadFile _ => true
  | _ => false

/-- An operation whose arguments keep to the memory and to the voices. -/
def Operation.Fits : Operation → Prop
  | read address | write address _ | poke address _ => 0 ≤ address ∧ address < 0x10000
  | slice start length =>
    0 ≤ start ∧ start < 0x10000 ∧ 0 ≤ length ∧ start + length ≤ 0x10000
  | loadImage base data => 0 ≤ base ∧ base < 0x10000 ∧ base + data.length ≤ 0x10000
  | loadSteps place _ => 0 ≤ place ∧ place < 5
  | _ => True

/-- How an attempt ends: it is carried out just if a condition is met, and otherwise leaves the host
as it is. -/
inductive Ends (host : Host) (fits : Prop) : Host × Except HostFault Answer → Prop where
  | done (fit : fits) (next : Host) (answer : Answer) : Ends host fits (next, .ok answer)
  | refused (unfit : ¬fits) (fault : HostFault) : Ends host fits (host, .error fault)

/-- All places of the steps of a voice are memory. -/
theorem inMemory_step (voice : Voice) {step : Nat} (within : step < stepCount) :
    inMemory (voice.base + step) = true := by
  have range := voice.base_range
  exact inMemory_iff.mpr (by omega)

/-- There are five voices. -/
theorem isSome_ofPlace? {place : Int} :
    (Voice.ofPlace? place).isSome = true ↔ 0 ≤ place ∧ place < 5 := by
  have voices : Voice.all.length = 5 := rfl
  unfold Voice.ofPlace?
  split
  · rw [Option.isSome_iff_ne_none, ne_eq, List.getElem?_eq_none_iff]
    omega
  · simp only [Option.isSome_none, Bool.false_eq_true, false_iff]
    omega

/-- Once the voice is known no step is refused. -/
theorem loadSteps_voice (host : Host) {place : Int} {voice : Voice}
    (known : Voice.ofPlace? place = some voice) (values : List Int) :
    ∃ next count, host.loadSteps place values = (next, .ok count) := by
  simp only [loadSteps, known]
  rw [loadStores_eq_putStores host 0 fun store member => ?_]
  · exact ⟨_, _, rfl⟩
  · obtain ⟨⟨value, step⟩, indexed, rfl⟩ := List.mem_map.mp member
    have place := List.snd_lt_of_mem_zipIdx indexed
    rw [List.length_take] at place
    exact inMemory_step voice (by omega)

/-- A byte is read at every address of the memory, and nowhere else. -/
theorem read_ends (host : Host) (address : Int) :
    Ends host (0 ≤ address ∧ address < 0x10000) (host.perform (.read address)) := by
  rw [perform, read]
  by_cases inside : inMemory address = true
  · rw [if_pos inside]
    exact .done (inMemory_iff.mp inside) _ _
  · rw [if_neg inside]
    exact .refused (mt inMemory_iff.mpr inside) _

/-- A byte is written at every address of the memory, and nowhere else. -/
theorem write_ends (host : Host) (address value : Int) :
    Ends host (0 ≤ address ∧ address < 0x10000) (host.perform (.write address value)) := by
  rw [perform, write]
  by_cases inside : inMemory address = true
  · rw [if_pos inside]
    exact .done (inMemory_iff.mp inside) _ _
  · rw [if_neg inside]
    exact .refused (mt inMemory_iff.mpr inside) _

/-- Bytes are read within the memory, and nowhere else. -/
theorem slice_ends (host : Host) (start length : Int) :
    Ends host (0 ≤ start ∧ start < 0x10000 ∧ 0 ≤ length ∧ start + length ≤ 0x10000)
      (host.perform (.slice start length)) := by
  have space : (memorySize : Int) = 0x10000 := rfl
  rw [perform, slice]
  cases starts : inMemory start with
  | false =>
    have outside := mt inMemory_iff.mpr (ne_true_of_eq_false starts)
    exact .refused (by omega) _
  | true =>
    have inside := inMemory_iff.mp starts
    by_cases beyond : length < 0 ∨ memorySize < start + length
    · rw [Bool.not_true, if_neg Bool.false_ne_true, if_pos beyond]
      exact .refused (by omega) _
    · rw [Bool.not_true, if_neg Bool.false_ne_true, if_neg beyond]
      exact .done (by omega) _ _

/-- An image is loaded within the memory, and nowhere else. -/
theorem loadImage_ends (host : Host) (base : Int) (data : List UInt8) :
    Ends host (0 ≤ base ∧ base < 0x10000 ∧ base + data.length ≤ 0x10000)
      (host.perform (.loadImage base data)) := by
  have space : (memorySize : Int) = 0x10000 := rfl
  rw [perform, loadImage]
  cases starts : inMemory base with
  | false =>
    have outside := mt inMemory_iff.mpr (ne_true_of_eq_false starts)
    exact .refused (by omega) _
  | true =>
    have inside := inMemory_iff.mp starts
    by_cases beyond : memorySize < base + data.length
    · rw [Bool.not_true, if_neg Bool.false_ne_true, if_pos beyond]
      exact .refused (by omega) _
    · rw [Bool.not_true, if_neg Bool.false_ne_true, if_neg beyond]
      exact .done (by omega) _ _

/-- Steps are loaded for each of the five voices, and no other. -/
theorem loadSteps_ends (host : Host) (place : Int) (values : List Int) :
    Ends host (0 ≤ place ∧ place < 5) (host.perform (.loadSteps place values)) := by
  rw [perform, ← isSome_ofPlace?]
  cases known : Voice.ofPlace? place with
  | none =>
    have unknown : host.loadSteps place values = (host, .error (.voice place)) := by
      simp only [loadSteps, known]
    rw [unknown]
    exact .refused Bool.false_ne_true _
  | some voice =>
    obtain ⟨next, count, loaded⟩ := loadSteps_voice host known values
    rw [loaded]
    exact .done rfl _ _

/-- An operation that does not load piece by piece is carried out just if its arguments fit, and
otherwise leaves the host as it is. -/
theorem perform_ends (host : Host) {operation : Operation} (whole : operation.isPiecewise = false) :
    Ends host operation.Fits (host.perform operation) := by
  cases operation with
  | read address => exact read_ends host address
  | write address value => exact write_ends host address value
  | poke address value => exact write_ends host address value
  | slice start length => exact slice_ends host start length
  | loadImage base data => exact loadImage_ends host base data
  | loadSteps place values => exact loadSteps_ends host place values
  | loadRecords records => contradiction
  | loadFile text => contradiction
  | _ => exact .done trivial _ _

/-- Through a session of any operations, refused ones included, the memory of a host has its 65536
bytes. An operation that does not load piece by piece is refused exactly when its arguments do not
fit, and then it leaves all of the memory as it is. -/
theorem session_keeps_memory (tempo : Int) (operations : List Operation) :
    let host := (start tempo).run operations
    host.memory.size = 65536 ∧ (∀ byte ∈ host.memory, byte.toNat ≤ 255) ∧
      ∀ operation, operation.isPiecewise = false →
        ((∃ fault, (host.perform operation).2 = .error fault) ↔ ¬operation.Fits) ∧
          ∀ fault, (host.perform operation).2 = .error fault →
            (host.perform operation).1.memory = host.memory := by
  intro host
  refine ⟨size_run (size_start tempo) operations, fun byte _ => ?_, fun operation whole => ?_⟩
  · have bound := byte.toNat_lt
    omega
  · have ends := perform_ends host whole
    generalize host.perform operation = outcome at ends
    cases ends with
    | done fit next answer => simp [fit]
    | refused unfit fault => simp [unfit]

/-- Operations that a fresh host refuses, and a step of its transport. -/
def refusedSession : List Operation :=
  [.write 0x10000 7, .loadSteps 5 [1], .poke (-1) 300, .tick]

/-- Two bytes at the last address are refused behind other refused operations, and nothing of them
stays. -/
theorem session_keeps_memory_beyond :
    ((start 120).run refusedSession).memory.size = 65536 ∧
      (Operation.loadImage 0xFFFF [1, 2]).isPiecewise = false ∧
      ∃ fault, (((start 120).run refusedSession).perform (.loadImage 0xFFFF [1, 2])).2 =
          .error fault ∧
        (((start 120).run refusedSession).perform (.loadImage 0xFFFF [1, 2])).1.memory =
          ((start 120).run refusedSession).memory := by
  obtain ⟨size, _, whole⟩ := session_keeps_memory 120 refusedSession
  have unfit : ¬(Operation.loadImage 0xFFFF [1, 2]).Fits := fun fits => absurd fits.2.2 (by decide)
  obtain ⟨refused, kept⟩ := whole (.loadImage 0xFFFF [1, 2]) rfl
  obtain ⟨fault, found⟩ := refused.mpr unfit
  exact ⟨size, rfl, fault, found, kept fault found⟩

end StepSequencer.Host
