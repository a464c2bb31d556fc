import StepSequencer.Instruction
import StepSequencer.Memory.Map

/-!
# Images of the audio region

The bytes of the audio region after a sequence of stores into zeroed memory.
-/
namespace StepSequencer.Image

/-- A region without any store. -/
def empty : Array UInt8 := Array.replicate regionSize 0

/-- Apply one store; an address outside the region has no effect. -/
def store (image : Array UInt8) (write : Store) : Array UInt8 :=
  if inRegion write.1 then
    image.setIfInBounds (write.1 - regionStart).toNat (byteOf write.2)
  else image

/-- The region after stores in order: the last store at an address counts. -/
def ofStores (stores : List Store) : Array UInt8 := stores.foldl store empty

/-- A store keeps the size of an image. -/
@[simp] theorem size_store (image : Array UInt8) (write : Store) :
    (store image write).size = image.size := by
  unfold store
  split
  · exact Array.size_setIfInBounds ..
  · rfl

/-- The image of the region has the size of the region. -/
@[simp] theorem size_ofStores (stores : List Store) : (ofStores stores).size = regionSize := by
  suffices general : ∀ image : Array UInt8, (stores.foldl store image).size = image.size by
    rw [ofStores, general, empty, Array.size_replicate]
  induction stores with
  | nil => exact fun _ => rfl
  | cons write rest ih =>
    intro image
    rw [List.foldl_cons, ih, size_store]

end StepSequencer.Image
