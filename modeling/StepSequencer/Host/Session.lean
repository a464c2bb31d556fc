import StepSequencer.Host

/-!
# Sessions with a host

A session is a sequence of operations on one host. An operation gives an answer or is refused; the
session goes on with whatever memory there is then.
-/
namespace StepSequencer.Host

/-- What can be asked of a host that changes its memory or may be refused. -/
inductive Operation where
  | read (address : Int)
  | write (address value : Int)
  /-- A store under the name that packs use. -/
  | poke (address value : Int)
  | slice (start length : Int)
  | loadImage (base : Int) (data : List UInt8)
  | loadRecords (records : List Record)
  | loadFile (text : String)
  | loadSteps (place : Int) (values : List Int)
  | play
  | stop
  | reset
  | setTempo (bpm : Int)
  | tick

/-- What a host answers. -/
inductive Answer where
  | done
  | byte (value : UInt8)
  | bytes (values : List UInt8)
  | count (total : Nat)
  /-- Whether the transport still runs, and the triggers fired. -/
  | playing (still : Bool) (fired : List Trigger)
deriving DecidableEq, Repr

/-- Carry out one operation: the host after it, and the answer or the refusal. -/
def perform (host : Host) : Operation → Host × Except HostFault Answer
  | .read address => (host, (host.read address).map .byte)
  | .write address value | .poke address value => host.settle .done (host.write address value)
  | .slice start length => (host, (host.slice start length).map .bytes)
  | .loadImage base data => host.settle .done (host.loadImage base data)
  | .loadRecords records =>
    let (next, outcome) := host.loadRecords records
    (next, outcome.map .count)
  | .loadFile text =>
    let (next, outcome) := host.loadFile text
    (next, outcome.map .count)
  | .loadSteps place values =>
    let (next, outcome) := host.loadSteps place values
    (next, outcome.map fun _ => .done)
  | .play => (host.play, .ok .done)
  | .stop => (host.stop, .ok .done)
  | .reset => (host.reset, .ok .done)
  | .setTempo bpm => (host.setTempo bpm, .ok .done)
  | .tick =>
    let (next, fired) := host.tick
    (next, .ok (.playing next.isPlaying fired))

/-- Carry out operations one after the other, the refused ones included. -/
def run (host : Host) : List Operation → Host
  | [] => host
  | operation :: operations => (host.perform operation).1.run operations

end StepSequencer.Host
