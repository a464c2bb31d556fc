import StepSequencer.Program.Lower
import StepSequencer.Proofs.Target.Framed

/-!
# All targets describe one memory

The three languages deliver the stores of a program in order. Assembly has the settings of tempo and
swing in front and leaves out stores elsewhere, and Intel HEX has what is left in the end. All of
them leave the image of the program's stores: a setting in front is never the last store at its
address, because every setting of a program comes with a write to the same register.
-/
namespace StepSequencer.Delivered

/-- A load is read back. -/
theorem loadedValue?_load (value : Int) :
    loadedValue? ("  li t0 " ++ Text.decimal value).toList = some value := by
  have read := number?_decimal value (Text.stops_nil Text.isDecimal)
  rw [List.append_nil] at read
  simp only [loadedValue?, String.toList_append, behind?_append, Text.decimal,
    String.toList_ofList, read, Option.bind_eq_bind, Option.bind_some, if_true]

/-- A store with its comment is read back. -/
theorem storedAddress?_store (address : Int) (name : String) :
    storedAddress? ("  sb t0 $" ++ Text.hexUpper 0 address ++ "          ; " ++ name).toList =
      some address := by
  have stops : Text.Stops Text.isHex ("          ; ".toList ++ name.toList) :=
    Text.stops_append (by decide) name.toList
  have blank : ("          ; ".toList ++ name.toList).head? = some ' ' := rfl
  simp only [storedAddress?, String.toList_append, List.append_assoc, behind?_append,
    number?_hexUpper address stops, Option.bind_eq_bind, Option.bind_some, blank, or_true, if_true]

/-- The stores of lines of assembly are read back. -/
theorem pairStores_storeLines (stores : List Store) :
    pairStores ((stores.flatMap Assembly.storeLines).map String.toList) = stores := by
  induction stores with
  | nil => rfl
  | cons store stores ih =>
    have lines : ((store :: stores).flatMap Assembly.storeLines).map String.toList =
        ("  li t0 " ++ Text.decimal store.2).toList ::
          ("  sb t0 $" ++ Text.hexUpper 0 store.1 ++ "          ; " ++
            Assembly.registerName store.1).toList ::
          (stores.flatMap Assembly.storeLines).map String.toList := rfl
    rw [lines, pairStores, loadedValue?_load, storedAddress?_store]
    exact congrArg (List.cons store) ih

/-- The name of an address does not break its line. -/
theorem newline_not_mem_registerName (address : Int) :
    '\n' ∉ (Assembly.registerName address).toList := by
  have labels : ∀ range ∈ Assembly.voiceRanges, '\n' ∉ range.2.2.toList := by decide
  unfold Assembly.registerName
  split
  · next first behind label found =>
    have label := labels _ (List.mem_of_find?_eq_some found)
    exact Text.not_mem_append (Text.not_mem_append (Text.not_mem_append label (by decide))
      (Text.newline_not_mem_decimal _)) (by decide)
  · split
    · decide
    · split
      · decide
      · split <;> decide

/-- The lines of stores are single lines. -/
theorem storeLines_unbroken (stores : List Store) :
    ∀ line ∈ stores.flatMap Assembly.storeLines, '\n' ∉ line.toList := by
  intro line member
  obtain ⟨store, _, inside⟩ := List.mem_flatMap.mp member
  rcases List.mem_cons.mp inside with rfl | second
  · exact Text.not_mem_append (by decide) (Text.newline_not_mem_decimal store.2)
  · obtain rfl := List.mem_singleton.mp second
    exact Text.not_mem_append (Text.not_mem_append (Text.not_mem_append (by decide)
      (Text.newline_not_mem_hexUpper store.1)) (by decide)) (newline_not_mem_registerName store.1)

/-- A text in parts is no other text if its first part is not at the front of that. -/
theorem append_ne₄ {word other : String} {a b c : String}
    (apart : behind? word.toList other.toList = none) : word ++ a ++ b ++ c ≠ other := by
  rw [String.append_assoc, String.append_assoc]
  exact append_ne _ apart

/-- A line that starts in neither of the two ways is no line of a store. -/
theorem not_mem_storeLines {line : String} (load : behind? "  li t0 ".toList line.toList = none)
    (stored : behind? "  sb t0 $".toList line.toList = none) (stores : List Store) :
    line ∉ stores.flatMap Assembly.storeLines := by
  intro member
  obtain ⟨store, _, inside⟩ := List.mem_flatMap.mp member
  rcases List.mem_cons.mp inside with same | second
  · exact append_ne _ load same.symm
  · exact append_ne₄ stored (List.mem_singleton.mp second).symm

/-- The store of a setting. -/
def settingStore? : Instruction → Option Store
  | .tempo bpm => some (Register.tempo, bpm)
  | .swing percent => some (Register.swing, percent)
  | _ => none

/-- A setting is delivered as the store of its value in its register. -/
theorem settingLines_eq_storeLines (instructions : List Instruction) :
    (instructions.filterMap Assembly.setting?).flatMap Assembly.settingLines =
      (instructions.filterMap settingStore?).flatMap Assembly.storeLines := by
  have tempo : "  sb t0 $1501          ; SEQ_TEMPO" =
      "  sb t0 $" ++ Text.hexUpper 0 Register.tempo ++ "          ; " ++
        Assembly.registerName Register.tempo := by decide +kernel
  have swing : "  sb t0 $1503          ; SEQ_SWING" =
      "  sb t0 $" ++ Text.hexUpper 0 Register.swing ++ "          ; " ++
        Assembly.registerName Register.swing := by decide +kernel
  induction instructions with
  | nil => rfl
  | cons instruction instructions ih =>
    cases instruction with
    | tempo bpm =>
      simp only [List.filterMap_cons, Assembly.setting?, settingStore?, List.flatMap_cons, ih,
        Assembly.settingLines, Assembly.storeLines, tempo]
    | swing percent =>
      simp only [List.filterMap_cons, Assembly.setting?, settingStore?, List.flatMap_cons, ih,
        Assembly.settingLines, Assembly.storeLines, swing]
    | _ => exact ih

/-- The head of a text in assembly does not break. -/
theorem assembly_header_unbroken {title tempo : String} (titlePlain : '\n' ∉ title.toList)
    (tempoPlain : '\n' ∉ tempo.toList) :
    ∀ line ∈ Assembly.header title tempo, '\n' ∉ line.toList := by
  simp only [Assembly.header, List.forall_mem_cons]
  refine ⟨Text.not_mem_append (newline_not_mem_ofList (by decide)) titlePlain,
    newline_not_mem_ofList (by decide), newline_not_mem_ofList (by decide),
    Text.not_mem_append (newline_not_mem_ofList (by decide)) tempoPlain, ?_⟩
  repeat' first
    | exact List.forall_mem_nil _
    | refine ⟨newline_not_mem_ofList (by decide), ?_⟩

/-- The lines of assembly with settings and stores into the region. -/
def assemblyLines (labels : Labels) (settings region : List Store) : List String :=
  Assembly.header labels.title labels.tempo ++ settings.flatMap Assembly.storeLines ++
    Assembly.middle ++ region.flatMap Assembly.storeLines ++ Assembly.footer

/-- Assembly is delivered with its settings, and with its stores into the region. -/
theorem emit_assembly (labels : Labels) (instructions : List Instruction) :
    Target.emit .assembly labels instructions = Target.joinLines (assemblyLines labels
      (instructions.filterMap settingStore?)
      ((Instruction.stores instructions).filter fun store => inRegion store.1)) := by
  rw [assemblyLines, ← settingLines_eq_storeLines]
  rfl

/-- The labels of the two parts stand where the parts start, and not before. -/
theorem not_mem_assembly_header (labels : Labels) :
    "load_patterns:" ∉ Assembly.header labels.title labels.tempo ∧
      "audio_init:" ∉ (Assembly.header labels.title labels.tempo).dropLast := by
  simp only [Assembly.header, List.dropLast, List.mem_cons, not_or]
  exact ⟨⟨(append_ne _ (by decide)).symm, by decide, by decide,
    (append_ne _ (by decide)).symm, by decide⟩, (append_ne _ (by decide)).symm, by decide,
    by decide, (append_ne _ (by decide)).symm, by decide⟩

/-- No store is written as a line that returns. -/
theorem ret_not_mem_storeLines (stores : List Store) :
    "  ret" ∉ stores.flatMap Assembly.storeLines :=
  not_mem_storeLines (by decide) (by decide) stores

section Parts

variable {labels : Labels} (titlePlain : '\n' ∉ labels.title.toList)
  (tempoPlain : '\n' ∉ labels.tempo.toList) (settings region : List Store)

include titlePlain tempoPlain

/-- The lines of the settings are those between the label of the start and its return. -/
theorem part_audio_init : part "audio_init:" "  ret"
    (Text.feedLines (Target.joinLines (assemblyLines labels settings region)).toList) =
      (settings.flatMap Assembly.storeLines).map String.toList := by
  have layout : assemblyLines labels settings region =
      (Assembly.header labels.title labels.tempo).dropLast ++ "audio_init:" ::
        (settings.flatMap Assembly.storeLines ++ ["  ret"]) ++
          (["", "load_patterns:"] ++ region.flatMap Assembly.storeLines ++ Assembly.footer) := by
    simp [assemblyLines, Assembly.header, Assembly.middle]
  have headPlain := assembly_header_unbroken titlePlain tempoPlain
  rw [layout, feedLines_joinLines, part_lines (not_mem_assembly_header labels).2
    (ret_not_mem_storeLines settings)]
  simp only [List.forall_mem_append, List.forall_mem_cons]
  exact ⟨fun line member => headPlain line (List.dropLast_subset _ member), by decide,
    storeLines_unbroken settings, by decide, by decide⟩

/-- The lines of the stores are those between the label of the patterns and its return. -/
theorem part_load_patterns : part "load_patterns:" "  ret"
    (Text.feedLines (Target.joinLines (assemblyLines labels settings region)).toList) =
      (region.flatMap Assembly.storeLines).map String.toList := by
  have layout : assemblyLines labels settings region =
      (Assembly.header labels.title labels.tempo ++ settings.flatMap Assembly.storeLines ++
        ["  ret", ""]) ++ "load_patterns:" ::
          (region.flatMap Assembly.storeLines ++ ["  ret"]) ++ Assembly.footer.tail := by
    simp [assemblyLines, Assembly.middle, Assembly.footer]
  have headPlain := assembly_header_unbroken titlePlain tempoPlain
  have absent : "load_patterns:" ∉ Assembly.header labels.title labels.tempo ++
      settings.flatMap Assembly.storeLines ++ ["  ret", ""] := by
    rw [List.mem_append, List.mem_append, not_or, not_or]
    exact ⟨⟨(not_mem_assembly_header labels).1,
      not_mem_storeLines (by decide) (by decide) settings⟩, by decide⟩
  rw [layout, feedLines_joinLines, part_lines absent (ret_not_mem_storeLines region)]
  simp only [List.forall_mem_append, List.forall_mem_cons]
  exact ⟨⟨⟨headPlain, storeLines_unbroken settings⟩, by decide, by decide, by decide⟩, by decide,
    storeLines_unbroken region, by decide, by decide⟩

/-- The settings and the stores into the region are read back from assembly. -/
theorem stores?_assembly (instructions : List Instruction) :
    stores? .assembly (Target.emit .assembly labels instructions) =
      some (instructions.filterMap settingStore? ++
        (Instruction.stores instructions).filter fun store => inRegion store.1) := by
  rw [emit_assembly]
  simp only [stores?, part_audio_init titlePlain tempoPlain,
    part_load_patterns titlePlain tempoPlain, pairStores_storeLines]

end Parts

/-- A scene sets neither tempo nor swing. -/
theorem settingStore?_sceneInstructions (patterns : Index Pattern) (clearRests : Bool)
    (scene : Scene) :
    ∀ instruction ∈ Program.sceneInstructions patterns clearRests scene,
      settingStore? instruction = none := by
  have voice (voice : Voice) (steps : List Int) :
      ∀ instruction ∈ voice.writes clearRests steps, settingStore? instruction = none := by
    intro instruction member
    obtain ⟨step, _, written⟩ := List.mem_filterMap.mp member
    simp only [Option.ite_none_right_eq_some] at written
    rw [← Option.some.inj written.2]
    rfl
  intro instruction member
  rcases List.mem_cons.mp member with rfl | played
  · rfl
  · obtain ⟨assignment, _, inside⟩ := List.mem_flatMap.mp played
    unfold Program.assignmentWrites at inside
    split at inside
    · exact voice _ _ instruction inside
    · exact absurd inside List.not_mem_nil

/-- A statement that sets something also writes it to the register. -/
theorem setting_written {patterns : Index Pattern} {scenes : Index Scene} {clearRests : Bool}
    {statement : Statement} {instruction : Instruction} {store : Store}
    (inside : instruction ∈ Program.statementInstructions patterns scenes clearRests statement)
    (here : settingStore? instruction = some store) :
    ∃ other ∈ Program.statementInstructions patterns scenes clearRests statement,
      other.store? = some store := by
  have quiet (scene : Scene) :
      instruction ∉ Program.sceneInstructions patterns clearRests scene := by
    intro played
    rw [settingStore?_sceneInstructions _ _ _ _ played] at here
    contradiction
  cases statement with
  | tempo line bpm =>
    simp only [Program.statementInstructions, List.mem_cons, List.not_mem_nil, or_false] at inside
    rcases inside with rfl | rfl
    · exact ⟨.write Register.tempo bpm, by simp [Program.statementInstructions], here⟩
    · contradiction
  | swing line percent =>
    simp only [Program.statementInstructions, List.mem_cons, List.not_mem_nil, or_false] at inside
    rcases inside with rfl | rfl
    · exact ⟨.write Register.swing percent, by simp [Program.statementInstructions], here⟩
    · contradiction
  | scene definition => exact absurd inside (quiet definition)
  | assign line assignment =>
    exact absurd (List.mem_cons_of_mem _ (by simpa [Program.statementInstructions] using inside))
      (quiet ⟨"", [assignment], line⟩)
  | play line name looped =>
    simp only [Program.statementInstructions, List.mem_append, List.mem_cons, List.not_mem_nil,
      or_false] at inside
    rcases inside with scene | rfl | rfl
    · split at scene
      · exact absurd scene (quiet _)
      · exact absurd scene List.not_mem_nil
    · contradiction
    · contradiction
  | stop line =>
    simp only [Program.statementInstructions, List.mem_cons, List.not_mem_nil, or_false] at inside
    rcases inside with rfl | rfl <;> contradiction
  | pattern definition => exact absurd inside List.not_mem_nil
  | param line voice parameter value => exact absurd inside List.not_mem_nil
  | _ =>
    obtain rfl := List.mem_singleton.mp inside
    contradiction

/-- Whatever a program sets, it also writes to the register. -/
theorem setting_mem_stores {program : Program} {clearRests : Bool} {store : Store}
    (set : store ∈ (program.instructions clearRests).filterMap settingStore?) :
    store ∈ Instruction.stores (program.instructions clearRests) := by
  obtain ⟨instruction, member, here⟩ := List.mem_filterMap.mp set
  obtain ⟨statement, known, inside⟩ := List.mem_flatMap.mp member
  obtain ⟨other, near, stored⟩ := setting_written inside here
  exact List.mem_filterMap.mpr ⟨other, List.mem_flatMap.mpr ⟨statement, known, near⟩, stored⟩

/-- Whatever the target, the stores of a delivered text leave the bytes that the instructions of the
program leave. -/
theorem byteAt_delivered (program : Program) (clearRests : Bool) {labels : Labels}
    (titlePlain : '\n' ∉ labels.title.toList) (tempoPlain : '\n' ∉ labels.tempo.toList)
    (target : Target) :
    ∃ stores, stores? target (target.emit labels (program.instructions clearRests)) = some stores ∧
      ∀ address, inRegion address = true → Store.byteAt stores address =
        Store.byteAt (Instruction.stores (program.instructions clearRests)) address := by
  generalize written : Instruction.stores (program.instructions clearRests) = stores
  cases target with
  | assembly =>
    refine ⟨_, stores?_assembly titlePlain tempoPlain _, fun address inside => ?_⟩
    rw [written, Store.byteAt, Store.last?_append, Store.last?_filter_address, if_pos inside,
      Store.byteAt]
    cases found : Store.last? stores address with
    | some value => rfl
    | none =>
      -- A setting at this address would have been written here as well.
      have unset : Store.last? ((program.instructions clearRests).filterMap settingStore?)
          address = none := by
        rw [Store.last?_eq_none_iff] at found ⊢
        exact fun store set => found store (written ▸ setting_mem_stores set)
      rw [unset, Option.none_or]
  | webAssembly =>
    exact ⟨stores, written ▸ stores?_webAssembly titlePlain _, fun _ _ => rfl⟩
  | c =>
    exact ⟨stores, written ▸ stores?_c titlePlain _, fun _ _ => rfl⟩
  | rust =>
    exact ⟨stores, written ▸ stores?_rust titlePlain _, fun _ _ => rfl⟩
  | intelHex =>
    have text : Target.emit .intelHex labels (program.instructions clearRests) =
        IntelHex.regionFile stores := by
      rw [← written]
      rfl
    refine ⟨(IntelHex.regionChunks stores).flatMap IntelHex.Chunk.stores, ?_, fun address inside =>
      IntelHex.byteAt_regionChunks stores inside⟩
    simp only [text, stores?, IntelHex.read_regionFile]

/-- Whatever the target, the stores of a delivered text can be read back from it. They leave the
same bytes in the audio region for all targets: at each address that of the last instruction that
writes there, modulo 256 and zero if there is none, and the image of the instructions is made of
these bytes. -/
theorem image_delivered (program : Program) (clearRests : Bool) (labels : Labels)
    (titlePlain : '\n' ∉ labels.title.toList) (tempoPlain : '\n' ∉ labels.tempo.toList)
    (target : Target) :
    ∃ stores, stores? target (target.emit labels (program.instructions clearRests)) = some stores ∧
      (Image.ofStores (Instruction.stores (program.instructions clearRests))).size = 0x600 ∧
      ∀ address : Int, 0x1000 ≤ address → address < 0x1600 →
        Store.byteAt stores address =
            Store.byteAt (Instruction.stores (program.instructions clearRests)) address ∧
          (Image.ofStores (Instruction.stores (program.instructions clearRests)))[
            (address - 0x1000).toNat]? = some (Store.byteAt stores address) := by
  obtain ⟨stores, read, bytes⟩ :=
    byteAt_delivered program clearRests titlePlain tempoPlain target
  refine ⟨stores, read, Image.size_ofStores _, fun address low high => ?_⟩
  have same := bytes address (inRegion_iff.mpr ⟨low, high⟩)
  refine ⟨same, ?_⟩
  rw [same, Image.getElem?_ofStores _ (inRegion_iff.mpr ⟨low, high⟩)]

/-- A setting, a later store in its register, the steps of a pattern and a store elsewhere. -/
def retimed : Program :=
  ⟨[.tempo 1 90, .poke 2 0x1501 300, .poke 3 0x2000 7, .pattern ⟨"p", "X..x", [127, 0, 0, 1], 4⟩,
    .assign 5 ⟨"kick", some "p"⟩, .play 6 none true]⟩

/-- Some addresses, and the bytes that the program leaves there. -/
def retimedBytes : List (Int × UInt8) :=
  [(0x1000, 127), (0x1001, 0), (0x1003, 1), (0x1500, 3), (0x1501, 44), (0x15FF, 0)]

/-- The stores that are read back leave the steps and the tempo that was stored last, in all
targets, and so does the image. -/
theorem image_delivered_retimed :
    ('\n' ∉ "Break".toList ∧ '\n' ∉ "90 BPM".toList) ∧
      ∀ target : Target, ∃ stores,
        stores? target (target.emit ⟨"Break", "90 BPM"⟩ (retimed.instructions false)) =
            some stores ∧
          ∀ entry ∈ retimedBytes, Store.byteAt stores entry.1 = entry.2 ∧
            (Image.ofStores (Instruction.stores (retimed.instructions false)))[
              (entry.1 - 0x1000).toNat]? = some entry.2 := by
  refine ⟨⟨by decide, by decide⟩, fun target => ?_⟩
  obtain ⟨stores, read, _, bytes⟩ :=
    image_delivered retimed false ⟨"Break", "90 BPM"⟩ (by decide) (by decide) target
  have written : ∀ entry ∈ retimedBytes, 0x1000 ≤ entry.1 ∧ entry.1 < 0x1600 ∧
      Store.byteAt (Instruction.stores (retimed.instructions false)) entry.1 = entry.2 := by
    decide
  refine ⟨stores, read, fun entry member => ?_⟩
  obtain ⟨low, high, byte⟩ := written entry member
  obtain ⟨same, image⟩ := bytes entry.1 low high
  rw [same, byte] at image
  exact ⟨same.trans byte, image⟩

end StepSequencer.Delivered
