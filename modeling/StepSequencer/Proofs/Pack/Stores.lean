import StepSequencer.Proofs.Pack.Source
import StepSequencer.Proofs.Program.Voices

/-!
# The stores of a demo's program

Names lead from the scene of a demo to the patterns of its voices, and from these to the steps that
were spelled. So the program of a demo has no finding, and its stores are those of the demo in
another order, without the rests.
-/
namespace StepSequencer.Catalog

variable {key name : String} {pack : Pack} {demo : Demo}

/-- The voices that are played are those with a text. -/
theorem mem_played {voice : Voice} {text : String} :
    (voice, text) ∈ played demo ↔ demo.text? voice = some text := by
  rw [played, List.mem_filterMap]
  constructor
  · rintro ⟨other, _, found⟩
    obtain ⟨own, given, same⟩ := Option.map_eq_some_iff.mp found
    obtain ⟨rfl, rfl⟩ := Prod.mk.inj same
    exact given
  · intro given
    exact ⟨voice, voice.mem_all, by rw [given]; rfl⟩

/-- Statements that make stores define nothing. -/
theorem filterMap_pokes {β : Type} (define? : Statement → Option β)
    (none : ∀ line address value, define? (.poke line address value) = .none)
    (stores : List Store) : (pokes stores).filterMap define? = [] := by
  rw [pokes, List.filterMap_map, List.filterMap_eq_nil_iff]
  exact fun store _ => none _ _ _

/-- The statements of a voice define its pattern, if it has one. -/
theorem pattern?_voiceStatements (voice : Voice) (text : String) :
    (voiceStatements voice text).filterMap Statement.pattern? =
      (patternOf? voice text).toList := by
  unfold voiceStatements
  cases patternOf? voice text with
  | some pattern => rfl
  | none => exact (List.filterMap_cons_none rfl).trans (filterMap_pokes _ (fun _ _ _ => rfl) _)

/-- The statements of a voice define no scene. -/
theorem scene?_voiceStatements (voice : Voice) (text : String) :
    (voiceStatements voice text).filterMap Statement.scene? = [] := by
  unfold voiceStatements
  cases patternOf? voice text with
  | some pattern => rfl
  | none => exact (List.filterMap_cons_none rfl).trans (filterMap_pokes _ (fun _ _ _ => rfl) _)

/-- The patterns that the program of a demo defines. -/
theorem filterMap_pattern?_body (writable : Writable key name pack demo) :
    (program key name pack demo).body.filterMap Statement.pattern? =
      (played demo).flatMap fun entry => (patternOf? entry.1 entry.2).toList := by
  have tempo : (demo.tempo?.toList.map (Statement.tempo Position.start.line)).filterMap
      Statement.pattern? = [] := by
    cases demo.tempo? <;> rfl
  have init := filterMap_pokes Statement.pattern? (fun _ _ _ => rfl) pack.init
  simp only [body_program writable, List.filterMap_append, List.filterMap_flatMap, tempo, init,
    pattern?_voiceStatements]
  exact List.append_nil _

/-- The program of a demo has one scene. -/
theorem get?_scenes (writable : Writable key name pack demo) :
    (program key name pack demo).scenes.get? "main" = some (mainScene demo) := by
  have tempo : (demo.tempo?.toList.map (Statement.tempo Position.start.line)).filterMap
      Statement.scene? = [] := by
    cases demo.tempo? <;> rfl
  have init := filterMap_pokes Statement.scene? (fun _ _ _ => rfl) pack.init
  have voices : (played demo).flatMap (fun entry =>
      (voiceStatements entry.1 entry.2).filterMap Statement.scene?) = [] := by
    simp only [scene?_voiceStatements, List.flatMap_eq_nil_iff, implies_true]
  have definitions : (program key name pack demo).body.filterMap Statement.scene? =
      [mainScene demo] := by
    simp only [body_program writable, List.filterMap_append, List.filterMap_flatMap, tempo, init,
      voices]
    rfl
  rw [Program.scenes, definitions]
  rfl

/-- Voices have lines of different names. -/
theorem lineName_injective {voice other : Voice} (same : lineName voice = lineName other) :
    voice = other := by
  revert same
  cases voice <;> cases other <;> decide

/-- The pattern of a voice has the steps of its text. -/
theorem get?_patterns (writable : Writable key name pack demo) {voice : Voice} {text : String}
    (member : (voice, text) ∈ played demo) (canSpell : spelled text = true) :
    ∃ pattern, (program key name pack demo).patterns.get? (lineName voice) = some pattern ∧
      pattern.steps = Demo.decode text.toList := by
  obtain ⟨steps, found⟩ := Option.isSome_iff_exists.mp canSpell
  obtain ⟨pattern, own, named⟩ :
      ∃ pattern, patternOf? voice text = some pattern ∧ pattern.name = lineName voice := by
    rw [patternOf?, found]
    exact ⟨_, rfl, rfl⟩
  rw [Program.patterns, filterMap_pattern?_body writable]
  have defined : (lineName voice, pattern) ∈ ((played demo).flatMap fun entry =>
      (patternOf? entry.1 entry.2).toList).map fun pattern => (pattern.name, pattern) := by
    have inside : pattern ∈ (played demo).flatMap fun entry =>
        (patternOf? entry.1 entry.2).toList :=
      List.mem_flatMap.mpr ⟨(voice, text), member, Option.mem_toList.mpr own⟩
    exact List.mem_map.mpr ⟨pattern, inside, by rw [named]⟩
  obtain ⟨last, got, among⟩ := Index.get?_ofList_of_mem defined
  refine ⟨last, got, ?_⟩
  -- Whichever definition of the name is the last, it is that of the same voice.
  obtain ⟨pattern, inside, same⟩ := List.mem_map.mp among
  obtain ⟨sameName, rfl⟩ := Prod.mk.inj same
  obtain ⟨⟨other, otherText⟩, otherMember, here⟩ := List.mem_flatMap.mp inside
  obtain ⟨otherSteps, otherFound, rfl⟩ := Option.map_eq_some_iff.mp (Option.mem_toList.mp here)
  obtain rfl := lineName_injective sameName
  have texts := (mem_played.mp otherMember).symm.trans (mem_played.mp member)
  obtain rfl := Option.some.inj texts
  exact decode_of_spelling? otherFound

/-- The writes of a voice without its rests. -/
theorem stores_writes (voice : Voice) {steps : List Int} (full : steps.length = stepCount) :
    Instruction.stores (voice.writes false steps) =
      (Demo.voiceStores voice steps).filter fun store => store.2 != 0 := by
  have indexed : steps.zipIdx =
      (List.range stepCount).map fun step => (steps.getD step 0, step) := by
    apply List.ext_getElem
    · rw [List.length_zipIdx, List.length_map, List.length_range, full]
    · intro step left right
      have inside : step < steps.length := by rwa [List.length_zipIdx] at left
      simp [inside]
  have sparse (value : Nat → Int) (places : List Nat) :
      Instruction.stores (places.filterMap fun step => if value step ≠ 0 ∨ false = true then
        some (.write (voice.base + (step : Nat)) (value step)) else none) =
      (places.map fun step => (voice.base + (step : Nat), value step)).filter fun store =>
        store.2 != 0 := by
    induction places with
    | nil => rfl
    | cons step places ih =>
      by_cases rest : value step = 0
      · rw [List.filterMap_cons_none (by simp [rest]), ih, List.map_cons,
          List.filter_cons_of_neg (by simp [rest])]
      · rw [List.filterMap_cons, List.map_cons, List.filter_cons_of_pos (by simp [rest]), ← ih,
          if_pos (Or.inl rest)]
        rfl
  rw [Demo.voiceStores, indexed, List.map_map]
  exact sparse (fun step => steps.getD step 0) (List.range stepCount)

/-- A scene writes the steps of a voice that it plays. -/
theorem stores_assignmentWrites (writable : Writable key name pack demo) {voice : Voice}
    {text : String} (member : (voice, text) ∈ played demo) (canSpell : spelled text = true) :
    Instruction.stores (Program.assignmentWrites (program key name pack demo).patterns false
      ⟨voice.name, some (lineName voice)⟩) = struck voice text := by
  obtain ⟨pattern, got, steps⟩ := get?_patterns writable member canSpell
  have named : lineName voice ≠ "" := by
    cases voice <;> decide
  rw [Program.assignmentWrites_eq named got, steps]
  exact stores_writes voice (Demo.length_decode _)

/-- The scene of a demo writes the voices that play a pattern. -/
theorem stores_mainScene (writable : Writable key name pack demo) :
    Instruction.stores (Program.sceneInstructions (program key name pack demo).patterns false
      (mainScene demo)) = sceneStores demo := by
  have writes : Instruction.stores (Program.sceneInstructions
      (program key name pack demo).patterns false (mainScene demo)) =
      ((played demo).filter fun entry => spelled entry.2).flatMap fun entry =>
        Instruction.stores (Program.assignmentWrites (program key name pack demo).patterns false
          ⟨entry.1.name, some (lineName entry.1)⟩) := by
    rw [Program.stores_sceneInstructions, mainScene, assignments, List.map_map, List.flatMap_map]
    rfl
  rw [writes, sceneStores, List.flatMap_def, List.flatMap_def]
  refine congrArg List.flatten (List.map_congr_left fun entry member => ?_)
  obtain ⟨inside, canSpell⟩ := List.mem_filter.mp member
  exact stores_assignmentWrites writable inside canSpell

variable (patterns : Index Pattern) (scenes : Index Scene)

/-- Pokes make their stores. -/
theorem stores_pokes (stores : List Store) :
    Instruction.stores ((pokes stores).flatMap
      (Program.statementInstructions patterns scenes false)) = stores := by
  rw [Instruction.stores_flatMap, pokes, List.flatMap_map]
  exact List.flatMap_singleton' stores

/-- The statements of a voice store its steps but for rests if no pattern can spell them. -/
theorem stores_voiceStatements (voice : Voice) (text : String) :
    Instruction.stores ((voiceStatements voice text).flatMap
      (Program.statementInstructions patterns scenes false)) =
        if spelled text then [] else struck voice text := by
  unfold voiceStatements patternOf? spelled
  cases spelling? (Demo.decode text.toList) with
  | some steps => rfl
  | none =>
    -- The comment that heads the stores makes none itself.
    simp only [Option.map_none, List.flatMap_cons, Instruction.stores_append,
      stores_pokes patterns scenes (struck voice text)]
    rfl

/-- The statements of voices store the steps that no pattern can spell. -/
theorem stores_voices (entries : List (Voice × String)) :
    Instruction.stores ((entries.flatMap fun entry => voiceStatements entry.1 entry.2).flatMap
      (Program.statementInstructions patterns scenes false)) =
        (entries.filter fun entry => !spelled entry.2).flatMap fun entry =>
          struck entry.1 entry.2 := by
  induction entries with
  | nil => rfl
  | cons entry entries ih =>
    rw [List.flatMap_cons, List.flatMap_append, Instruction.stores_append, stores_voiceStatements,
      ih, List.filter_cons]
    cases spelled entry.2 <;> rfl

/-- The stores of the program of a demo, in order. -/
theorem stores_program (writable : Writable key name pack demo) :
    Instruction.stores ((program key name pack demo).instructions false) =
      (demo.tempo?.toList.map fun bpm => (Register.tempo, bpm)) ++ pack.init ++ noteStores demo ++
        sceneStores demo ++ sceneStores demo ++ [(Register.control, 3)] := by
  have played : Program.given? (some "main") = some "main" := by decide
  have scene := get?_scenes writable
  have main := stores_mainScene writable
  rw [Program.instructions, body_program writable]
  generalize (program key name pack demo).patterns = patterns at *
  generalize (program key name pack demo).scenes = scenes at *
  have tempo : Instruction.stores ((demo.tempo?.toList.map (.tempo Position.start.line)).flatMap
      (Program.statementInstructions patterns scenes false)) =
        demo.tempo?.toList.map fun bpm => (Register.tempo, bpm) := by
    cases demo.tempo? <;> rfl
  have last : Instruction.stores ([.scene (mainScene demo),
      .play Position.start.line (some "main") true].flatMap
        (Program.statementInstructions patterns scenes false)) =
          sceneStores demo ++ sceneStores demo ++ [(Register.control, 3)] := by
    simp only [List.flatMap_cons, List.flatMap_nil, Program.statementInstructions, played,
      Option.bind_some, scene, Instruction.stores_append, main, List.append_assoc]
    rfl
  have init := stores_pokes patterns scenes pack.init
  have voices := stores_voices patterns scenes (Catalog.played demo)
  simp only [List.flatMap_append, Instruction.stores_append, tempo, init, voices, last,
    List.append_assoc]
  rfl

/-- Pokes of bytes have no errors. -/
theorem errors_pokes {stores : List Store}
    (bytes : ∀ store ∈ stores, 0 ≤ store.2 ∧ store.2 ≤ 255) (defined : List String) :
    ∀ statement ∈ pokes stores, statement.errors defined = [] := by
  intro statement member
  obtain ⟨store, known, rfl⟩ := List.mem_map.mp member
  exact if_pos (bytes store known)

/-- The statements of a voice have no errors. -/
theorem errors_voiceStatements (voice : Voice) (text : String) (defined : List String) :
    ∀ statement ∈ voiceStatements voice text, statement.errors defined = [] := by
  unfold voiceStatements
  cases patternOf? voice text with
  | some pattern => exact List.forall_mem_singleton.mpr rfl
  | none =>
    exact List.forall_mem_cons.mpr
      ⟨rfl, errors_pokes (fun store member => (mem_struck member).2.2) defined⟩

/-- The checks find nothing wrong with the program of a writable demo. -/
theorem lintErrors_program (writable : Writable key name pack demo) :
    (program key name pack demo).lintErrors = [] := by
  have scene : (Statement.scene (mainScene demo)).errors
      (program key name pack demo).patterns.names = [] := by
    rw [Statement.errors, List.flatMap_eq_nil_iff]
    intro assignment member
    obtain ⟨names, among, rfl⟩ := List.mem_map.mp member
    obtain ⟨⟨voice, text⟩, inside, rfl⟩ := List.mem_map.mp among
    obtain ⟨entry, canSpell⟩ := List.mem_filter.mp inside
    obtain ⟨pattern, got, _⟩ := get?_patterns writable entry canSpell
    exact if_pos (.inr (Index.mem_names_of_get? got))
  have tempo : ∀ statement ∈ demo.tempo?.toList.map (Statement.tempo Position.start.line),
      statement.errors (program key name pack demo).patterns.names = [] := by
    intro statement member
    obtain ⟨bpm, given, rfl⟩ := List.mem_map.mp member
    exact if_pos (writable.bpm_range bpm (Option.mem_toList.mp given))
  have voices : ∀ statement ∈ (played demo).flatMap fun entry => voiceStatements entry.1 entry.2,
      statement.errors (program key name pack demo).patterns.names = [] := by
    intro statement member
    obtain ⟨entry, _, inside⟩ := List.mem_flatMap.mp member
    exact errors_voiceStatements entry.1 entry.2 _ statement inside
  have init := errors_pokes (fun store member => (writable.init_bytes store member).2)
    (program key name pack demo).patterns.names
  rw [Program.lintErrors, List.flatMap_eq_nil_iff]
  generalize (program key name pack demo).patterns.names = defined at *
  rw [body_program writable]
  simp only [List.forall_mem_append, List.forall_mem_cons]
  exact ⟨⟨⟨⟨⟨⟨rfl, rfl, List.forall_mem_nil _⟩, tempo⟩, rfl, List.forall_mem_nil _⟩, init⟩, voices⟩,
    scene, rfl, List.forall_mem_nil _⟩

/-- The text of a demo is that of its passages. -/
theorem source_eq_passages {catalog : Catalog} (packed : catalog.pack key = .ok pack)
    (found : catalog.demo key name = .ok demo) :
    ∃ text, catalog.source key name = .ok text ∧
      text.toList = (passages key name pack demo).flatMap fun passage =>
        Passage.textOf passage.lines := by
  refine ⟨String.join ((sourceLines key name pack demo).map fun line => line ++ "\n"), ?_, ?_⟩
  · simp only [source, packed, found]
    rfl
  · rw [Text.toList_join_lines, sourceLines_eq_passages, List.flatMap_assoc]
    rfl

/-- The text of a writable demo is a clean source, and its program is that of the demo. -/
theorem clean_source {catalog : Catalog} (packed : catalog.pack key = .ok pack)
    (found : catalog.demo key name = .ok demo) (writable : Writable key name pack demo) :
    ∃ source, catalog.source key name = .ok source ∧ Compilation.Clean source ∧
      ∀ clearRests, (Compilation.programOf source).instructions clearRests =
        (program key name pack demo).instructions clearRests := by
  obtain ⟨source, written, text⟩ := source_eq_passages packed found
  have readable := readable_passages writable
  exact ⟨source, written, Compilation.clean_of_passages readable text (lintErrors_program writable),
    Compilation.instructions_of_passages readable text⟩

end StepSequencer.Catalog
