import StepSequencer.Instruction.Record
import StepSequencer.IntelHex.Reader
import StepSequencer.Memory.Map

/-!
# The sequencer host

A host owns the whole memory and plays what is in it. The state of the transport is memory, too: a
program can start, stop and retime the host with plain stores. Stores beyond the memory are
refused; loading stops at the first refused store and keeps what was stored before it.
-/
namespace StepSequencer

/-- The number of bytes of memory. -/
def memorySize : Nat := 0x10000

/-- Why the host refuses. -/
inductive HostFault where
  | address (address : Int)
  | slice (start length : Int)
  | image (size : Nat) (base : Int)
  | voice (place : Int)
  | operand (fault : OperandFault)
  | file (fault : IntelHex.Fault)
deriving DecidableEq, Repr

/-- The wording of a refusal. -/
def HostFault.message : HostFault → String
  | address place => "Address out of range: $" ++ Text.hexUpper 0 place
  | slice start length =>
    "Slice out of range: $" ++ Text.hexUpper 0 start ++ "+" ++ Text.decimal length
  | image size base =>
    "Image of " ++ Text.decimal size ++ " bytes does not fit at $" ++ Text.hexUpper 0 base
  | voice place => "Unknown voice index: " ++ Text.decimal place
  | operand fault => fault.message
  | file fault => fault.message

/-- A voice that sounds, with the parameters of its sound. -/
inductive Trigger where
  | kick (pitch : UInt8)
  | snare (tone snap : UInt8)
  | lead (note : UInt8)
  | bass (note modulation : UInt8)
  | noise (decay : UInt8)
deriving DecidableEq, Repr

/-- The memory of a host. -/
structure Host where
  memory : Array UInt8
deriving DecidableEq, Repr

namespace Host

/-- Whether an address is one of the memory. -/
def inMemory (address : Int) : Bool := decide (0 ≤ address ∧ address < memorySize)

/-- The byte at an address; there is a zero wherever there is no memory. -/
def peek (host : Host) (address : Int) : UInt8 :=
  if inMemory address then host.memory.getD address.toNat 0 else 0

/-- Put a byte at an address; beyond the memory nothing happens. -/
def put (host : Host) (address : Int) (byte : UInt8) : Host :=
  if inMemory address then ⟨host.memory.setIfInBounds address.toNat byte⟩ else host

/-- Storing a byte keeps the size of the memory. -/
@[simp] theorem size_put (host : Host) (address : Int) (byte : UInt8) :
    (host.put address byte).memory.size = host.memory.size := by
  unfold put
  split
  · exact Array.size_setIfInBounds ..
  · rfl

/-- A host with empty memory and a tempo. -/
def start (tempo : Int) : Host :=
  put ⟨Array.replicate memorySize 0⟩ Register.tempo (byteOf tempo)

/-- A host starts with all of its memory. -/
@[simp] theorem size_start (tempo : Int) : (start tempo).memory.size = memorySize := by
  rw [start, size_put, Array.size_replicate]

/-- Read a byte. -/
def read (host : Host) (address : Int) : Except HostFault UInt8 :=
  if inMemory address then .ok (host.peek address) else .error (.address address)

/-- Store the byte of a value. -/
def write (host : Host) (address value : Int) : Except HostFault Host :=
  if inMemory address then .ok (host.put address (byteOf value)) else .error (.address address)

/-- The bytes of a part of the memory. -/
def slice (host : Host) (start length : Int) : Except HostFault (List UInt8) :=
  if !inMemory start then .error (.address start)
  else if length < 0 ∨ memorySize < start + length then .error (.slice start length)
  else .ok (host.memory.extract start.toNat (start + length).toNat).toList

/-- Put bytes in the place of as many others from an address on. Bytes beyond the last of the memory
make it longer. -/
def splice (host : Host) (base : Nat) (data : List UInt8) : Host :=
  ⟨host.memory.extract 0 base ++ data.toArray ++
    host.memory.extract (base + data.length) host.memory.size⟩

/-- Copy an image into memory, if all of it fits. -/
def loadImage (host : Host) (base : Int) (data : List UInt8) : Except HostFault Host :=
  if !inMemory base then .error (.address base)
  else if memorySize < base + data.length then .error (.image data.length base)
  else .ok (host.splice base.toNat data)

/-- Store one after the other and count, up to the first store that cannot be made. -/
def loadStores (host : Host) (count : Nat) :
    List (Except OperandFault Store) → Host × Except HostFault Nat
  | [] => (host, .ok count)
  | .error fault :: _ => (host, .error (.operand fault))
  | .ok (address, value) :: rest =>
    if inMemory address then loadStores (host.put address (byteOf value)) (count + 1) rest
    else (host, .error (.address address))

/-- Load the writes of instructions. -/
def loadInstructions (host : Host) (instructions : List Instruction) :
    Host × Except HostFault Nat :=
  host.loadStores 0 ((Instruction.stores instructions).map .ok)

/-- Load the writes of records; each is read when its turn comes. -/
def loadRecords (host : Host) (records : List Record) : Host × Except HostFault Nat :=
  host.loadStores 0 ((Record.writes records).map Record.store)

/-- After an attempt: the host that it made, with an answer, or the old host with the refusal. -/
def settle {α : Type} (host : Host) (answer : α) :
    Except HostFault Host → Host × Except HostFault α
  | .error fault => (host, .error fault)
  | .ok next => (next, .ok answer)

/-- Load a chunk behind others and count its bytes; a refusal among those before it stays. -/
def loadChunk (before : Host × Except HostFault Nat) (chunk : IntelHex.Chunk) :
    Host × Except HostFault Nat :=
  match before with
  | (host, .error fault) => (host, .error fault)
  | (host, .ok count) =>
    host.settle (count + chunk.data.length) (host.loadImage chunk.address chunk.data)

/-- Load chunks one after the other and count their bytes, up to the first that does not fit. -/
def loadChunks (host : Host) (chunks : List IntelHex.Chunk) : Host × Except HostFault Nat :=
  chunks.foldl loadChunk (host, .ok 0)

/-- Load the data of an Intel HEX file. The whole file is read before anything is stored. -/
def loadFile (host : Host) (text : String) : Host × Except HostFault Nat :=
  match IntelHex.read text.toList with
  | .error fault => (host, .error (.file fault))
  | .ok chunks => host.loadChunks chunks

/-- Store up to sixteen step values one after the other at the voice of a place in hardware
order. -/
def loadSteps (host : Host) (place : Int) (values : List Int) : Host × Except HostFault Nat :=
  match Voice.ofPlace? place with
  | none => (host, .error (.voice place))
  | some voice =>
    let stores : List Store :=
      (values.take stepCount).zipIdx.map fun (value, step) => (voice.base + (step : Nat), value)
    host.loadStores 0 (stores.map .ok)

/-- Whether the transport runs: bit 0 of the control register. -/
def isPlaying (host : Host) : Bool := host.peek Register.control &&& 1 != 0

/-- Whether the transport starts over at the end of a bar: bit 1 of the control register. -/
def isLooping (host : Host) : Bool := host.peek Register.control &&& 2 != 0

/-- Start the transport. -/
def play (host : Host) : Host := host.put Register.control (host.peek Register.control ||| 1)

/-- Stop the transport. -/
def stop (host : Host) : Host := host.put Register.control (host.peek Register.control &&& 0xFE)

/-- Stop the transport and go back to the first step. -/
def reset (host : Host) : Host := (host.put Register.control 0).put Register.step 0

/-- The step that plays next. -/
def step (host : Host) : Nat := (host.peek Register.step).toNat % stepCount

/-- The tempo in beats per minute. -/
def tempo (host : Host) : UInt8 := host.peek Register.tempo

/-- Set the tempo, moved to the nearest bound. -/
def setTempo (host : Host) (bpm : Int) : Host :=
  host.put Register.tempo (byteOf (clamp tempoMin tempoMax bpm))

/-- The length of a step in seconds: a quarter of a beat, no tempo being slower than the slowest. -/
def stepSeconds (host : Host) : Float :=
  60.0 / Float.ofNat (max host.tempo.toNat tempoMin.toNat) / 4

/-- The trigger of a voice whose step byte is `gate`. -/
def triggerOf (host : Host) (gate : UInt8) : Voice → Trigger
  | .kick => .kick (host.peek Register.kickPitch)
  | .snare => .snare (host.peek Register.snareTone) (host.peek Register.snareSnap)
  | .lead => .lead gate
  | .bass => .bass gate (host.peek Register.bassModulation)
  | .noise => .noise (host.peek Register.noiseDecay)

/-- The triggers of a step in hardware order: one for every voice whose step byte is not zero. -/
def triggers (host : Host) (step : Nat) : List Trigger :=
  Voice.all.filterMap fun voice =>
    let gate := host.peek (voice.base + step)
    if gate = 0 then none else some (host.triggerOf gate voice)

/-- Move on to the next step; at the end of the bar the transport stops unless it loops. -/
def advance (host : Host) : Host :=
  let next := (host.step + 1) % stepCount
  let moved := host.put Register.step (UInt8.ofNat next)
  if next = 0 ∧ moved.isLooping = false then moved.stop else moved

/-- Play one step: the host after it and the triggers fired. A stopped host does nothing. -/
def tick (host : Host) : Host × List Trigger :=
  if host.isPlaying then
    let fired := host.triggers host.step
    (host.advance, fired)
  else (host, [])

/-- Play several steps: the host after them, the triggers fired, and after each step whether the
transport still runs. -/
def ticks (host : Host) : Nat → Host × List Trigger × List Bool
  | 0 => (host, [], [])
  | count + 1 =>
    let (next, fired) := host.tick
    let still := next.isPlaying
    let (last, more, playing) := next.ticks count
    (last, fired ++ more, still :: playing)

end Host

end StepSequencer
