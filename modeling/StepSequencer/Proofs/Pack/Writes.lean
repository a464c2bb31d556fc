import StepSequencer.Proofs.Pack.Stores

/-!
# The writes of a demo's program, in order

The text of a demo compiles without an error or a warning. Which of its voices are spelled as
patterns and which are written as notes depends on their step values alone: a voice plays notes as
soon as one of its values is neither a rest nor a trigger nor an accent.
-/
namespace StepSequencer.Catalog

variable {key name : String} {pack : Pack} {demo : Demo}

/-- Whether a step text holds a value that is neither a rest nor a trigger nor an accent. -/
def playsNotes (text : String) : Bool :=
  (Demo.decode text.toList).any fun value => !([0, 1, 127] : List Int).contains value

/-- The stores of voices without their rests, in order. -/
def struckAll (entries : List (Voice × String)) : List Store :=
  entries.flatMap fun entry => struck entry.1 entry.2

/-- What the program of a demo writes: the tempo, the settings of the pack, the voices that play
notes, the other voices twice, because they are written where their scene is defined and where it is
played, and the start of the transport. -/
def writes (pack : Pack) (demo : Demo) : List Store :=
  (demo.tempo?.toList.map fun bpm => (0x1501, bpm)) ++ pack.init ++
    struckAll ((played demo).filter fun entry => playsNotes entry.2) ++
    struckAll ((played demo).filter fun entry => !playsNotes entry.2) ++
    struckAll ((played demo).filter fun entry => !playsNotes entry.2) ++ [(0x1500, 3)]

/-- The text of trigger steps is always decoded as the steps, so a voice can be spelled as soon as
its steps have a text. -/
theorem spelled_eq_isSome (text : String) :
    spelled text = (Steps.encodeTriggers? (Demo.decode text.toList)).isSome := by
  rw [spelled, spelling?]
  cases encoded : Steps.encodeTriggers? (Demo.decode text.toList) with
  | none => rfl
  | some spelling =>
    have decoded := Steps.decode_of_encodeTriggers? (Demo.length_decode _) encoded
    rw [Option.filter_some, if_pos (beq_iff_eq.mpr decoded)]

/-- A pattern can spell the steps of exactly the voices that play no notes. -/
theorem spelled_eq_not_playsNotes (text : String) : spelled text = !playsNotes text := by
  rw [spelled_eq_isSome, Bool.eq_iff_iff, Steps.encodeTriggers?_isSome_iff, Bool.not_eq_true',
    playsNotes, List.any_eq_false]
  refine forall_congr' fun value => imp_congr_right fun _ => ?_
  rw [Bool.not_eq_true, Bool.not_eq_false', List.contains_iff_mem, List.mem_cons, List.mem_cons,
    List.mem_singleton]
  rfl

/-- The stores of the program of a demo are its writes. -/
theorem stores_program_eq_writes (writable : Writable key name pack demo) :
    Instruction.stores ((program key name pack demo).instructions false) = writes pack demo := by
  have notes : noteStores demo =
      struckAll ((played demo).filter fun entry => playsNotes entry.2) := by
    simp only [noteStores, struckAll, spelled_eq_not_playsNotes, Bool.not_not]
  have scene : sceneStores demo =
      struckAll ((played demo).filter fun entry => !playsNotes entry.2) := by
    simp only [sceneStores, struckAll, spelled_eq_not_playsNotes]
  rw [stores_program writable, notes, scene]
  rfl

/-- Nothing is doubtful about the passages of a voice. -/
theorem quiet_voicePassages (voice : Voice) (text : String) :
    ∀ passage ∈ voicePassages voice text, passage.Quiet := by
  unfold voicePassages
  cases found : spelling? (Demo.decode text.toList) with
  | some steps =>
    have length : (String.ofList steps).length = stepCount := by
      have values := congrArg List.length (marks_of_spelling? found).2
      rw [List.length_map, Demo.length_decode] at values
      rw [String.length_ofList, values]
    simp only [List.forall_mem_cons]
    exact ⟨trivial, length, List.forall_mem_nil _⟩
  | none =>
    simp only [List.forall_mem_cons]
    refine ⟨trivial, trivial, fun passage member => ?_⟩
    obtain ⟨store, known, rfl⟩ := List.mem_map.mp member
    have bounds := mem_struck known
    have base := voice.base_range
    exact inRegion_iff.mpr (by omega)

/-- Nothing is doubtful about the passages of a writable demo. -/
theorem quiet_passages (writable : Writable key name pack demo) :
    ∀ passage ∈ passages key name pack demo, passage.Quiet := by
  have tempo : ∀ passage ∈ demo.tempo?.toList.map Passage.tempo, passage.Quiet := by
    intro passage member
    obtain ⟨bpm, given, rfl⟩ := List.mem_map.mp member
    exact writable.bpm_range bpm (Option.mem_toList.mp given)
  have init : ∀ passage ∈ pack.init.map fun store => Passage.poke store.1 store.2,
      passage.Quiet := by
    intro passage member
    obtain ⟨store, known, rfl⟩ := List.mem_map.mp member
    exact (writable.init_bytes store known).1
  have voices : ∀ passage ∈ (played demo).flatMap fun entry => voicePassages entry.1 entry.2,
      passage.Quiet := by
    intro passage member
    obtain ⟨entry, _, inside⟩ := List.mem_flatMap.mp member
    exact quiet_voicePassages entry.1 entry.2 passage inside
  simp only [passages, List.forall_mem_append, List.forall_mem_cons]
  exact ⟨⟨⟨⟨⟨⟨trivial, trivial, List.forall_mem_nil _⟩, tempo⟩, trivial, trivial,
    List.forall_mem_nil _⟩, init⟩, voices⟩, trivial, trivial, trivial, List.forall_mem_nil _⟩

/-- The text of a writable demo compiles for every target, without an error and without a warning,
and what it writes, in order, is what the demo says. -/
theorem source_writes {catalog : Catalog} (options : Options) {target : Target}
    (packed : catalog.pack key = .ok pack) (found : catalog.demo key name = .ok demo)
    (writable : Writable key name pack demo)
    (known : Target.ofName? options.target.shown = some target)
    (rests : options.clearRests = false) :
    ∃ source instructions, catalog.source key name = .ok source ∧
      (Compilation.ofSource options source).success = true ∧
      (Compilation.ofSource options source).errors = [] ∧
      (Compilation.ofSource options source).warnings = [] ∧
      (Compilation.ofSource options source).instructions = some instructions ∧
      Instruction.stores instructions = writes pack demo := by
  obtain ⟨source, written, text⟩ := source_eq_passages packed found
  have readable := readable_passages writable
  have clean := Compilation.clean_of_passages readable text (lintErrors_program writable)
  have quiet := Compilation.warnings_of_passages readable (quiet_passages writable) text
  have stores : Instruction.stores ((Compilation.programOf source).instructions
      options.clearRests) = writes pack demo := by
    rw [rests, Compilation.instructions_of_passages readable text]
    exact stores_program_eq_writes writable
  exact ⟨source, _, written, Compilation.success_of_clean clean known,
    Compilation.errors_of_clean clean known,
    (Compilation.warnings_of_clean clean options).trans quiet,
    Compilation.instructions_of_clean clean options, stores⟩

/-- A pack with two settings and a demo whose tempo is not given, although a zero stands for it. -/
def sketch : Pack where
  name := "Sketch"
  category := "c"
  year := 1
  manufacturer := "m"
  description := "A kick and a \"bass\""
  teaches := []
  init := [(0x1010, 32), (0x1210, 80)]
  demos := [("P", ⟨some 0, [("bass", "24....27........"), ("kick", "x...x...x...X...")]⟩)]

/-- The notes of the bass are written first and once, the kick twice and without a tempo. -/
theorem source_writes_sketch :
    Writable "K" "P" sketch ⟨some 0, [("bass", "24....27........"), ("kick", "x...x...x...X...")]⟩ ∧
    ∃ source instructions, Catalog.source [("K", sketch)] "K" "P" = .ok source ∧
      (Compilation.ofSource ⟨.text "c", .text "", .number 120, false⟩ source).success = true ∧
      (Compilation.ofSource ⟨.text "c", .text "", .number 120, false⟩ source).errors = [] ∧
      (Compilation.ofSource ⟨.text "c", .text "", .number 120, false⟩ source).warnings = [] ∧
      (Compilation.ofSource ⟨.text "c", .text "", .number 120, false⟩ source).instructions =
        some instructions ∧
      Instruction.stores instructions = [(0x1010, 32), (0x1210, 80), (0x1200, 36), (0x1205, 39),
        (0x1000, 1), (0x1004, 1), (0x1008, 1), (0x100C, 127),
        (0x1000, 1), (0x1004, 1), (0x1008, 1), (0x100C, 127), (0x1500, 3)] := by
  have packed : pack [("K", sketch)] "K" = .ok sketch := rfl
  have found : demo [("K", sketch)] "K" "P" =
      .ok ⟨some 0, [("bass", "24....27........"), ("kick", "x...x...x...X...")]⟩ := rfl
  have writable : Writable "K" "P" sketch
      ⟨some 0, [("bass", "24....27........"), ("kick", "x...x...x...X...")]⟩ := by
    refine ⟨by decide, by decide, by decide, by decide, by decide, fun bpm given => ?_⟩
    contradiction
  have stores : writes sketch
      ⟨some 0, [("bass", "24....27........"), ("kick", "x...x...x...X...")]⟩ =
      [(0x1010, 32), (0x1210, 80), (0x1200, 36), (0x1205, 39),
        (0x1000, 1), (0x1004, 1), (0x1008, 1), (0x100C, 127),
        (0x1000, 1), (0x1004, 1), (0x1008, 1), (0x100C, 127), (0x1500, 3)] := by
    decide +kernel
  obtain ⟨source, instructions, written, success, errors, warnings, made, all⟩ :=
    source_writes ⟨.text "c", .text "", .number 120, false⟩ packed found writable rfl rfl
  exact ⟨writable, source, instructions, written, success, errors, warnings, made, all.trans stores⟩

end StepSequencer.Catalog
