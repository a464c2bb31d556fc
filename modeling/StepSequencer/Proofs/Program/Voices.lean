import StepSequencer.Program.Lower
import StepSequencer.Proofs.Memory.Stores

/-!
# What voices write

An assignment writes the steps of a pattern at its voice: a step that sounds always, a rest only on
request. Voices do not write at each other's addresses, so what a voice ends up with is decided by
the assignments to that voice alone.
-/
namespace StepSequencer

/-- A number that a byte can hold. -/
def IsByte (value : Int) : Prop := 0 ≤ value ∧ value ≤ 255

/-- Steps that a pattern lacks are bytes, too. -/
theorem isByte_getD {steps : List Int} (bytes : ∀ value ∈ steps, IsByte value) (step : Nat) :
    IsByte (steps.getD step 0) := by
  rw [List.getD_eq_getElem?_getD]
  cases found : steps[step]? with
  | none => exact ⟨by decide, by decide⟩
  | some value => exact bytes value (List.mem_of_getElem? found)

namespace Voice

/-- There are no other voices. -/
theorem mem_all (voice : Voice) : voice ∈ all := by
  cases voice <;> decide

/-- Every voice is known by its name. -/
theorem ofName?_name (voice : Voice) : ofName? voice.name = some voice := by
  cases voice <;> decide

/-- A voice writes its steps that sound, and its rests on request. -/
theorem mem_stores_writes {voice : Voice} {clearRests : Bool} {steps : List Int} {store : Store} :
    store ∈ Instruction.stores (voice.writes clearRests steps) ↔
      ∃ step < stepCount, (steps.getD step 0 ≠ 0 ∨ clearRests = true) ∧
        store = (voice.base + (step : Nat), steps.getD step 0) := by
  rw [Instruction.stores, writes, List.filterMap_filterMap, List.mem_filterMap]
  refine exists_congr fun step => and_congr List.mem_range ?_
  dsimp only
  split
  · next written => exact ⟨fun here => ⟨written, (Option.some.inj here).symm⟩, fun here => by
      rw [here.2]
      rfl⟩
  · next skipped => exact ⟨fun here => by contradiction, fun here => absurd here.1 skipped⟩

/-- A voice writes nothing elsewhere. -/
theorem last?_writes_elsewhere {voice : Voice} {address : Int}
    (outside : ¬(voice.base ≤ address ∧ address < voice.base + stepCount)) (clearRests : Bool)
    (steps : List Int) :
    Store.last? (Instruction.stores (voice.writes clearRests steps)) address = none := by
  rw [Store.last?_eq_none_iff]
  intro store member here
  obtain ⟨step, bound, _, rfl⟩ := mem_stores_writes.mp member
  have place : voice.base + (step : Int) = address := here
  exact outside (by omega)

/-- What a voice writes for a step: its value, if it sounds or rests are written. -/
theorem last?_writes (voice : Voice) (clearRests : Bool) (steps : List Int) {step : Nat}
    (bound : step < stepCount) :
    Store.last? (Instruction.stores (voice.writes clearRests steps)) (voice.base + step) =
      if steps.getD step 0 ≠ 0 ∨ clearRests = true then some (steps.getD step 0) else none := by
  have own {store : Store} (member : store ∈ Instruction.stores (voice.writes clearRests steps))
      (here : store.1 = voice.base + step) :
      (steps.getD step 0 ≠ 0 ∨ clearRests = true) ∧ store.2 = steps.getD step 0 := by
    obtain ⟨other, _, written, rfl⟩ := mem_stores_writes.mp member
    have place : voice.base + (other : Int) = voice.base + step := here
    obtain rfl : other = step := by omega
    exact ⟨written, rfl⟩
  split
  · next written =>
    exact Store.last?_of_mem (mem_stores_writes.mpr ⟨step, bound, written, rfl⟩)
      fun store member here => (own member here).2
  · next skipped =>
    rw [Store.last?_eq_none_iff]
    exact fun store member here => skipped (own member here).1

end Voice

namespace Program

/-- A name that is not empty counts as given. -/
theorem given?_of_ne {name : String} (named : name ≠ "") : given? (some name) = some name := by
  rw [given?, Option.filter_some, if_pos (bne_iff_ne.mpr named)]

/-- An assignment of a defined pattern writes the steps of the pattern. -/
theorem assignmentWrites_eq {patterns : Index Pattern} {name : String} {pattern : Pattern}
    (named : name ≠ "") (found : patterns.get? name = some pattern) (clearRests : Bool)
    (voice : Voice) :
    assignmentWrites patterns clearRests ⟨voice.name, some name⟩ =
      voice.writes clearRests pattern.steps := by
  simp only [assignmentWrites, given?_of_ne named, Voice.ofName?_name, Option.bind_some, found]

/-- The stores of a scene are those of its assignments. -/
theorem stores_sceneInstructions (patterns : Index Pattern) (clearRests : Bool) (scene : Scene) :
    Instruction.stores (sceneInstructions patterns clearRests scene) =
      scene.assignments.flatMap fun assignment =>
        Instruction.stores (assignmentWrites patterns clearRests assignment) := by
  rw [← Instruction.stores_flatMap]
  rfl

end Program

end StepSequencer
