/-!
# The audio memory map

The audio region, the five voices with the addresses of their sixteen step bytes, and the
registers of the sequencer and of the voices. Addresses are integers: a program may name any.
-/
namespace StepSequencer

/-- The first address of the audio region. -/
def regionStart : Int := 0x1000

/-- The first address behind the audio region. -/
def regionEnd : Int := 0x1600

/-- The number of bytes in the audio region. -/
def regionSize : Nat := 0x600

/-- Whether an address lies in the audio region. -/
def inRegion (address : Int) : Bool := decide (regionStart ≤ address ∧ address < regionEnd)

/-- The number of steps in a pattern. -/
def stepCount : Nat := 16

/-- The voices of the sound unit. -/
inductive Voice where
  | kick
  | snare
  | lead
  | bass
  | noise
deriving DecidableEq, Repr

namespace Voice

/-- The voices in hardware order. -/
def all : List Voice := [kick, snare, lead, bass, noise]

/-- The name that programs use. -/
def name : Voice → String
  | kick => "kick"
  | snare => "snare"
  | lead => "lead"
  | bass => "bass"
  | noise => "noise"

/-- The address of the first of a voice's sixteen step bytes. -/
def base : Voice → Int
  | kick => 0x1000
  | snare => 0x1020
  | lead => 0x1100
  | bass => 0x1200
  | noise => 0x1300

/-- The voice of a name. -/
def ofName? (name : String) : Option Voice := all.find? fun voice => voice.name == name

/-- The voice at a place in hardware order, counted from zero. -/
def ofPlace? (place : Int) : Option Voice := if 0 ≤ place then all[place.toNat]? else none

end Voice

namespace Register

/-- Transport control: bit 0 plays, bit 1 loops. -/
def control : Int := 0x1500

/-- Tempo in beats per minute. -/
def tempo : Int := 0x1501

/-- The step that plays next. -/
def step : Int := 0x1502

/-- Swing in percent. -/
def swing : Int := 0x1503

/-- Pitch of the kick. -/
def kickPitch : Int := 0x1010

/-- Tone of the snare. -/
def snareTone : Int := 0x1030

/-- Snap of the snare. -/
def snareSnap : Int := 0x1040

/-- Frequency modulation of the bass. -/
def bassModulation : Int := 0x1210

/-- Decay of the noise. -/
def noiseDecay : Int := 0x1310

end Register

/-- The slowest tempo. -/
def tempoMin : Int := 20

/-- The fastest tempo. -/
def tempoMax : Int := 255

/-- The least swing. -/
def swingMin : Int := 0

/-- The greatest swing. -/
def swingMax : Int := 100

/-- The nearest value between two bounds. -/
def clamp (low high value : Int) : Int := max low (min high value)

/-- The byte of an integer: its remainder modulo 256. -/
def byteOf (value : Int) : UInt8 := UInt8.ofNat (value % 256).toNat

end StepSequencer
