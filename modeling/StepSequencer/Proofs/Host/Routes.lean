import StepSequencer.Proofs.Compilation.Phases
import StepSequencer.Proofs.Host.Memory
import StepSequencer.Proofs.IntelHex.Region

/-!
# Two routes into a host

A compiled program reaches a host as instructions or as an Intel HEX file. The first route makes
single stores; the second writes whole blocks of sixteen bytes and leaves out blocks of zeros. A
fresh host holds zeros but for its tempo, so the routes can differ at the tempo alone: a record
that covers the tempo clears it although the program never set it, and a block of zeros that is
left out keeps it although the program set it to zero.
-/
namespace StepSequencer.Host

/-- Loading instructions whose stores lie in the region. -/
theorem loadInstructions_inside {host : Host} (sized : host.memory.size = memorySize)
    {instructions : List Instruction}
    (inside : ∀ store ∈ Instruction.stores instructions, inRegion store.1 = true) :
    (host.loadInstructions instructions).2 = .ok (Instruction.stores instructions).length ∧
      (host.loadInstructions instructions).1.memory.size = memorySize ∧
      ∀ address, inMemory address = true →
        (host.loadInstructions instructions).1.peek address =
          ((Store.last? (Instruction.stores instructions) address).map byteOf).getD
            (host.peek address) := by
  rw [loadInstructions_eq_putStores host inside]
  exact ⟨rfl, by rw [size_putStores, sized], fun address within => peek_putStores sized _ within⟩

/-- Loading the file of the region writes the blocks that the stores touched and no others. -/
theorem loadFile_region {host : Host} (sized : host.memory.size = memorySize)
    (stores : List Store) :
    (∃ total, (host.loadFile (IntelHex.regionFile stores)).2 = .ok total) ∧
      (host.loadFile (IntelHex.regionFile stores)).1.memory.size = memorySize ∧
      ∀ address, inRegion address = true →
        (IntelHex.Touched stores address →
          (host.loadFile (IntelHex.regionFile stores)).1.peek address =
            Store.byteAt stores address) ∧
        (¬IntelHex.Touched stores address →
          (host.loadFile (IntelHex.regionFile stores)).1.peek address = host.peek address) := by
  have space : memorySize = 0x10000 := rfl
  obtain ⟨loaded, total, made, size, bytes⟩ :=
    loadFile_inside sized (IntelHex.read_regionFile stores) fun chunk member => by
      have bounds := IntelHex.regionChunks_bounds member
      omega
  rw [made]
  refine ⟨⟨total, rfl⟩, size, fun address inside => ?_⟩
  have data := IntelHex.last?_regionChunks stores inside
  have byte := bytes address (inMemory_of_inRegion inside)
  constructor
  · intro touched
    rw [byte, data.1 touched]
    simp
  · intro free
    rw [byte, data.2 free]
    rfl

/-- Whether stores set the tempo of the sequencer. -/
def SetsTempo (stores : List Store) : Prop := ∃ store ∈ stores, store.1 = Register.tempo

/-- Stores that do not set the tempo have no last store there, and others have one. -/
theorem setsTempo_iff {stores : List Store} :
    SetsTempo stores ↔ ∃ value, Store.last? stores Register.tempo = some value := by
  rw [← Option.ne_none_iff_exists', ne_eq, Store.last?_eq_none_iff]
  simp [SetsTempo]

/-- From a fresh host on, both routes leave the same byte at every address but the tempo's. -/
theorem routes_agree_elsewhere (tempo : Int) {instructions : List Instruction}
    (inside : ∀ store ∈ Instruction.stores instructions, inRegion store.1 = true) {address : Int}
    (within : inRegion address = true) (elsewhere : address ≠ Register.tempo) :
    ((start tempo).loadInstructions instructions).1.peek address =
      ((start tempo).loadFile (IntelHex.regionFile (Instruction.stores instructions))).1.peek
        address := by
  have memory := inMemory_of_inRegion within
  have direct := (loadInstructions_inside (size_start tempo) inside).2.2 address memory
  have filed := (loadFile_region (size_start tempo) (Instruction.stores instructions)).2.2
    address within
  have zero : (start tempo).peek address = 0 := by
    rw [peek_start tempo memory, if_neg (Ne.symm elsewhere)]
  rw [direct, zero, ← Store.byteAt]
  by_cases touched : IntelHex.Touched (Instruction.stores instructions) address
  · rw [filed.1 touched]
  · rw [filed.2 touched, zero, IntelHex.byteAt_of_not_touched touched]

/-- From a fresh host on, both routes leave the same tempo exactly when the program sets the tempo
and touches its block, or does neither. -/
theorem routes_agree_tempo_iff {tempo : Int} (audible : byteOf tempo ≠ 0)
    {instructions : List Instruction}
    (inside : ∀ store ∈ Instruction.stores instructions, inRegion store.1 = true) :
    ((start tempo).loadInstructions instructions).1.peek Register.tempo =
        ((start tempo).loadFile (IntelHex.regionFile (Instruction.stores instructions))).1.peek
          Register.tempo ↔
      (SetsTempo (Instruction.stores instructions) ↔
        IntelHex.Touched (Instruction.stores instructions) Register.tempo) := by
  have within : inRegion Register.tempo = true := by decide
  have memory := inMemory_of_inRegion within
  have direct := (loadInstructions_inside (size_start tempo) inside).2.2 Register.tempo memory
  have filed := (loadFile_region (size_start tempo) (Instruction.stores instructions)).2.2
    Register.tempo within
  have preset : (start tempo).peek Register.tempo = byteOf tempo := by
    rw [peek_start tempo memory, if_pos rfl]
  rw [direct, preset]
  by_cases sets : SetsTempo (Instruction.stores instructions)
  · obtain ⟨value, last⟩ := setsTempo_iff.mp sets
    have byte : Store.byteAt (Instruction.stores instructions) Register.tempo = byteOf value := by
      rw [Store.byteAt, last]
      rfl
    by_cases touched : IntelHex.Touched (Instruction.stores instructions) Register.tempo
    · rw [filed.1 touched, byte, last]
      exact ⟨fun _ => ⟨fun _ => touched, fun _ => sets⟩, fun _ => rfl⟩
    · have zero := IntelHex.byteAt_of_not_touched touched
      rw [filed.2 touched, preset, last, Option.map_some, Option.getD_some, ← byte, zero]
      exact ⟨fun same => absurd same.symm audible, fun both => absurd (both.mp sets) touched⟩
  · have absent : Store.last? (Instruction.stores instructions) Register.tempo = none :=
      Option.eq_none_iff_forall_ne_some.mpr fun value last => sets (setsTempo_iff.mpr ⟨value, last⟩)
    have zero : Store.byteAt (Instruction.stores instructions) Register.tempo = 0 := by
      rw [Store.byteAt, absent]
      rfl
    by_cases touched : IntelHex.Touched (Instruction.stores instructions) Register.tempo
    · rw [filed.1 touched, zero, absent]
      exact ⟨fun same => absurd same audible, fun both => absurd (both.mpr touched) sets⟩
    · rw [filed.2 touched, preset, absent]
      exact ⟨fun _ => ⟨fun is => absurd is sets, fun is => absurd is touched⟩, fun _ => rfl⟩

/-- From a fresh host on, both routes leave the same audio region exactly when they leave the same
tempo. -/
theorem routes_agree_region_iff {tempo : Int} (audible : byteOf tempo ≠ 0)
    {instructions : List Instruction}
    (inside : ∀ store ∈ Instruction.stores instructions, inRegion store.1 = true) :
    ((start tempo).loadInstructions instructions).1.slice regionStart regionSize =
        ((start tempo).loadFile (IntelHex.regionFile (Instruction.stores instructions))).1.slice
          regionStart regionSize ↔
      (SetsTempo (Instruction.stores instructions) ↔
        IntelHex.Touched (Instruction.stores instructions) Register.tempo) := by
  have direct := (loadInstructions_inside (size_start tempo) inside).2.1
  have filed := (loadFile_region (size_start tempo) (Instruction.stores instructions)).2.1
  rw [slice_region_eq_iff direct filed, ← routes_agree_tempo_iff audible inside]
  constructor
  · intro same
    exact same Register.tempo (by decide)
  · intro same address within
    by_cases here : address = Register.tempo
    · rw [here, same]
    · exact routes_agree_elsewhere tempo inside within here

end StepSequencer.Host

namespace StepSequencer.Compilation

/-- The same options for delivery as an Intel HEX file. -/
def inIntelHex (options : Options) : Options := { options with target := .text Target.intelHex.key }

/-- A clean source is delivered as the file of the image of its stores. -/
theorem output_inIntelHex {source : String} (clean : Clean source) (options : Options) :
    (ofSource (inIntelHex options) source).output =
      some (IntelHex.regionFile
        (Instruction.stores ((programOf source).instructions options.clearRests))) := by
  have known : Target.ofName? (inIntelHex options).target.shown = some .intelHex := by
    show Target.ofName? Target.intelHex.key = some .intelHex
    decide
  exact output_of_clean clean known

/-- A program that compiles to stores into the audio region can be loaded into fresh hosts by both
routes. The hosts then differ at most in their tempo, and their audio regions are the same exactly
when the program sets the tempo and leaves a byte other than zero in the tempo's block, or does
neither. -/
theorem loaded_regions_eq_iff (source : String) (options : Options)
    (compiled : (ofSource options source).success = true)
    (inside : ∀ instructions, (ofSource options source).instructions = some instructions →
      ∀ store ∈ Instruction.stores instructions, inRegion store.1 = true) :
    ∃ instructions file,
      (ofSource options source).instructions = some instructions ∧
      (ofSource (inIntelHex options) source).output = some file ∧
      (∃ count, ((Host.start Settings.standard.tempo).loadInstructions instructions).2 =
        .ok count) ∧
      (∃ total, ((Host.start Settings.standard.tempo).loadFile file).2 = .ok total) ∧
      (∀ address, inRegion address = true → address ≠ Register.tempo →
        ((Host.start Settings.standard.tempo).loadInstructions instructions).1.peek address =
          ((Host.start Settings.standard.tempo).loadFile file).1.peek address) ∧
      (((Host.start Settings.standard.tempo).loadInstructions instructions).1.slice
          regionStart regionSize =
          ((Host.start Settings.standard.tempo).loadFile file).1.slice regionStart regionSize ↔
        (Host.SetsTempo (Instruction.stores instructions) ↔
          IntelHex.Touched (Instruction.stores instructions) Register.tempo)) := by
  have clean := clean_of_success compiled
  have made := instructions_of_clean clean options
  have within := inside _ made
  have audible : byteOf Settings.standard.tempo ≠ 0 := by decide
  have direct := Host.loadInstructions_inside (Host.size_start Settings.standard.tempo) within
  have filed := Host.loadFile_region (Host.size_start Settings.standard.tempo)
    (Instruction.stores ((programOf source).instructions options.clearRests))
  exact ⟨_, _, made, output_inIntelHex clean options, ⟨_, direct.1⟩, filed.1,
    fun _ here elsewhere => Host.routes_agree_elsewhere _ within here elsewhere,
    Host.routes_agree_region_iff audible within⟩

/-- A program that sets a tempo and plays is the same in a host by either route. -/
theorem loaded_regions_eq_timed :
    ∃ instructions file,
      (ofSource (.ofSettings .standard) "@tempo 90\n@play\n").instructions = some instructions ∧
      (ofSource (inIntelHex (.ofSettings .standard)) "@tempo 90\n@play\n").output = some file ∧
      ((Host.start Settings.standard.tempo).loadInstructions instructions).1.slice
          regionStart regionSize =
        ((Host.start Settings.standard.tempo).loadFile file).1.slice regionStart regionSize := by
  have clean : Clean "@tempo 90\n@play\n" := by decide +kernel
  have program : (programOf "@tempo 90\n@play\n").instructions false =
      [.tempo 90, .write 0x1501 90, .write 0x1500 1, .play] := by decide +kernel
  have made : (ofSource (.ofSettings .standard) "@tempo 90\n@play\n").instructions =
      some [.tempo 90, .write 0x1501 90, .write 0x1500 1, .play] :=
    (instructions_of_clean clean _).trans (congrArg some program)
  have known : Target.ofName? Settings.standard.target = some .assembly := by decide
  have inside : ∀ instructions,
      (ofSource (.ofSettings .standard) "@tempo 90\n@play\n").instructions = some instructions →
        ∀ store ∈ Instruction.stores instructions, inRegion store.1 = true := by
    intro instructions same
    obtain rfl := Option.some.inj (made.symm.trans same)
    decide
  obtain ⟨instructions, file, same, delivered, -, -, -, agree⟩ :=
    loaded_regions_eq_iff _ (.ofSettings .standard) (success_of_clean clean known) inside
  refine ⟨instructions, file, same, delivered, agree.mpr ?_⟩
  obtain rfl := Option.some.inj (made.symm.trans same)
  exact ⟨fun _ => ⟨0x1501, by decide, by decide⟩, fun _ => ⟨(0x1501, 90), by decide, by decide⟩⟩

/-- A program that only plays loses the preset tempo on its way through a file. -/
theorem loaded_regions_ne_untimed :
    ∃ instructions file,
      (ofSource (.ofSettings .standard) "@play\n").success = true ∧
      (ofSource (.ofSettings .standard) "@play\n").instructions = some instructions ∧
      (∀ store ∈ Instruction.stores instructions, inRegion store.1 = true) ∧
      (ofSource (inIntelHex (.ofSettings .standard)) "@play\n").output = some file ∧
      ((Host.start Settings.standard.tempo).loadInstructions instructions).1.slice
          regionStart regionSize ≠
        ((Host.start Settings.standard.tempo).loadFile file).1.slice regionStart regionSize := by
  have clean : Clean "@play\n" := by decide +kernel
  have program : (programOf "@play\n").instructions (Options.ofSettings .standard).clearRests =
      [.write 0x1500 1, .play] := by decide +kernel
  have made := instructions_of_clean clean (.ofSettings .standard)
  have delivered := output_inIntelHex clean (.ofSettings .standard)
  rw [program] at made delivered
  have known : Target.ofName? Settings.standard.target = some .assembly := by decide
  have inside : ∀ store ∈ Instruction.stores [.write 0x1500 1, .play],
      inRegion store.1 = true := by decide
  have audible : byteOf Settings.standard.tempo ≠ 0 := by decide
  have silent : ¬Host.SetsTempo (Instruction.stores [.write 0x1500 1, .play]) := by
    rintro ⟨store, member, here⟩
    obtain rfl := List.mem_singleton.mp member
    exact absurd here (by decide)
  have touched : IntelHex.Touched (Instruction.stores [.write 0x1500 1, .play]) Register.tempo :=
    ⟨0x1500, by decide, by decide⟩
  refine ⟨_, _, success_of_clean clean known, made, inside, delivered, fun same => silent ?_⟩
  exact ((Host.routes_agree_region_iff audible inside).mp same).mpr touched

end StepSequencer.Compilation
