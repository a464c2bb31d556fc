import StepSequencer.Proofs.Host.Playback
import StepSequencer.Proofs.Program.Passages
import StepSequencer.Proofs.Program.Voices
import StepSequencer.Proofs.Steps

/-!
# A bar, from its source to its sounds

A source that gives every voice a pattern, assigns the patterns in a scene and plays the scene is
followed through all phases. Its instructions write the steps of each voice, where the scene is
defined and again where it is played, and start the transport. A fresh host that loads them plays
the bar once: every step that is no rest sounds, in order, and nothing else does.
-/
namespace StepSequencer

/-- The voice of a trigger and its parameters as numbers. -/
def Trigger.event : Trigger → Voice × List Int
  | kick pitch => (.kick, [(pitch.toNat : Int)])
  | snare tone snap => (.snare, [(tone.toNat : Int), (snap.toNat : Int)])
  | lead note => (.lead, [(note.toNat : Int)])
  | bass note modulation => (.bass, [(note.toNat : Int), (modulation.toNat : Int)])
  | noise decay => (.noise, [(decay.toNat : Int)])

/-- The parameters of a voice that plays a value while all sound registers are zero: lead and bass
carry the value as their note. -/
def Voice.parameters (value : Int) : Voice → List Int
  | kick => [0]
  | snare => [0, 0]
  | lead => [value]
  | bass => [value, 0]
  | noise => [0]

/-- A bar for all voices: the name and the text of the pattern of each voice, and the name of the
scene that plays them. -/
structure Bar where
  name : Voice → String
  text : Voice → String
  scene : String
  isName : ∀ voice, Token.IsName (name voice)
  distinct : ∀ voice other, name voice = name other → voice = other
  plain : ∀ voice, '"' ∉ (text voice).toList ∧ '\n' ∉ (text voice).toList
  isSceneName : Token.IsName scene

namespace Bar

variable (bar : Bar)

/-- The lines of a bar: the patterns, the scene with its assignments, and the start. -/
def lines : List String :=
  (Voice.all.map fun voice => "@pattern " ++ bar.name voice ++ " \"" ++ bar.text voice ++ "\"") ++
    ["@scene " ++ bar.scene] ++
    (Voice.all.map fun voice => voice.name ++ ": " ++ bar.name voice) ++
    ["@play " ++ bar.scene]

/-- The source of a bar. -/
def source : String := String.join (bar.lines.map fun line => line ++ "\n")

/-- The step values of a voice. -/
def steps (voice : Voice) : List Int := Steps.decode (bar.text voice).toList

/-- What sounds in a bar: step after step, each voice whose value there is not zero. -/
def events : List (Voice × List Int) :=
  (List.range stepCount).flatMap fun step => Voice.all.filterMap fun voice =>
    let value := (bar.steps voice).getD step 0
    if value = 0 then none else some (voice, voice.parameters value)

/-- The passages of a bar. -/
def passages : List Passage :=
  (Voice.all.map fun voice => Passage.pattern (bar.name voice) (bar.text voice)) ++
    [.scene bar.scene (Voice.all.map fun voice => (voice.name, bar.name voice)),
      .play bar.scene false]

/-- The source of a bar is the text of its passages. -/
theorem toList_source :
    bar.source.toList = bar.passages.flatMap fun passage => Passage.textOf passage.lines := by
  have lines : bar.lines = bar.passages.flatMap Passage.lines := by
    have play : "@play " ++ bar.scene = "@play " ++ bar.scene ++ "" := String.append_empty.symm
    rw [Bar.lines, play]
    rfl
  rw [source, Text.toList_join_lines, lines, List.flatMap_assoc]
  rfl

/-- The passages of a bar are read as they are written. -/
theorem readable_passages : ∀ passage ∈ bar.passages, passage.Readable := by
  have patterns : ∀ passage ∈ Voice.all.map fun voice =>
      Passage.pattern (bar.name voice) (bar.text voice), passage.Readable := by
    intro passage member
    obtain ⟨voice, _, rfl⟩ := List.mem_map.mp member
    exact ⟨bar.isName voice, bar.plain voice⟩
  have assignments : ∀ assignment ∈ Voice.all.map fun voice => (voice.name, bar.name voice),
      Token.IsName assignment.1 ∧ Token.IsName assignment.2 := by
    intro assignment member
    obtain ⟨voice, _, rfl⟩ := List.mem_map.mp member
    have known : Token.IsName voice.name := by cases voice <;> decide
    exact ⟨known, bar.isName voice⟩
  simp only [passages, List.forall_mem_append, List.forall_mem_cons]
  exact ⟨patterns, ⟨bar.isSceneName, assignments⟩, bar.isSceneName, List.forall_mem_nil _⟩

/-- The pattern of a voice. -/
def pattern (voice : Voice) : Pattern :=
  ⟨bar.name voice, bar.text voice, bar.steps voice, Position.start.line⟩

/-- The scene that plays the patterns. -/
def mainScene : Scene :=
  ⟨bar.scene, Voice.all.map fun voice => ⟨voice.name, some (bar.name voice)⟩, Position.start.line⟩

/-- The program of a bar, without the places of its statements. -/
def program : Program where
  body := (Voice.all.map fun voice => Statement.pattern (bar.pattern voice)) ++
    [.scene bar.mainScene, .play Position.start.line (some bar.scene) false]

/-- Every pattern is found under the name of its voice. -/
theorem get?_patterns (voice : Voice) :
    bar.program.patterns.get? (bar.name voice) = some (bar.pattern voice) := by
  have definitions : bar.program.body.filterMap Statement.pattern? =
      Voice.all.map bar.pattern := rfl
  have defined : (bar.name voice, bar.pattern voice) ∈
      (Voice.all.map bar.pattern).map fun pattern => (pattern.name, pattern) :=
    List.mem_map.mpr ⟨bar.pattern voice, List.mem_map_of_mem voice.mem_all, rfl⟩
  obtain ⟨last, got, among⟩ := Index.get?_ofList_of_mem defined
  obtain ⟨pattern, member, same⟩ := List.mem_map.mp among
  obtain ⟨other, _, rfl⟩ := List.mem_map.mp member
  obtain ⟨named, rfl⟩ := Prod.mk.inj same
  obtain rfl := bar.distinct other voice named
  rw [Program.patterns, definitions]
  exact got

/-- The scene of a bar is known by its name. -/
theorem get?_scenes : bar.program.scenes.get? bar.scene = some bar.mainScene :=
  (Index.get?_cons bar.scene bar.mainScene [] bar.scene).trans (if_pos rfl)

/-- A name has a character. -/
theorem name_ne_empty {name : String} (isName : Token.IsName name) : name ≠ "" := by
  rintro rfl
  exact absurd isName (by decide)

/-- The checks find nothing wrong with a bar. -/
theorem lintErrors_program : bar.program.lintErrors = [] := by
  have patterns : ∀ statement ∈ Voice.all.map fun voice => Statement.pattern (bar.pattern voice),
      statement.errors bar.program.patterns.names = [] := by
    intro statement member
    obtain ⟨voice, _, rfl⟩ := List.mem_map.mp member
    rfl
  have scene : (Statement.scene bar.mainScene).errors bar.program.patterns.names = [] := by
    rw [Statement.errors, List.flatMap_eq_nil_iff]
    intro assignment member
    obtain ⟨voice, _, rfl⟩ := List.mem_map.mp member
    exact if_pos (.inr (Index.mem_names_of_get? (bar.get?_patterns voice)))
  rw [Program.lintErrors, List.flatMap_eq_nil_iff]
  generalize bar.program.patterns.names = defined at *
  simp only [program, List.forall_mem_append, List.forall_mem_cons]
  exact ⟨patterns, scene, rfl, List.forall_mem_nil _⟩

/-- The source of a bar is clean. -/
theorem clean_source : Compilation.Clean bar.source :=
  Compilation.clean_of_passages bar.readable_passages bar.toList_source bar.lintErrors_program

/-- The stores of the scene of a bar. -/
def sceneStores (clearRests : Bool) : List Store :=
  Voice.all.flatMap fun voice => Instruction.stores (voice.writes clearRests (bar.steps voice))

/-- The stores of a bar: its scene twice, and the start of the transport. -/
def stores (clearRests : Bool) : List Store :=
  bar.sceneStores clearRests ++ bar.sceneStores clearRests ++ [(Register.control, 1)]

/-- The scene of a bar stores the steps of its voices. -/
theorem stores_mainScene (clearRests : Bool) :
    Instruction.stores (Program.sceneInstructions bar.program.patterns clearRests bar.mainScene) =
      bar.sceneStores clearRests := by
  have writes (voice : Voice) : Program.assignmentWrites bar.program.patterns clearRests
      ⟨voice.name, some (bar.name voice)⟩ = voice.writes clearRests (bar.steps voice) :=
    Program.assignmentWrites_eq (name_ne_empty (bar.isName voice)) (bar.get?_patterns voice) _ _
  rw [Program.stores_sceneInstructions, mainScene, List.flatMap_map]
  simp only [writes]
  rfl

/-- The instructions of a bar make its stores. -/
theorem stores_source (clearRests : Bool) :
    Instruction.stores ((Compilation.programOf bar.source).instructions clearRests) =
      bar.stores clearRests := by
  have given := Program.given?_of_ne (name_ne_empty bar.isSceneName)
  have scene := bar.stores_mainScene clearRests
  have found := bar.get?_scenes
  have body : bar.program.body = (Voice.all.map fun voice => .pattern (bar.pattern voice)) ++
    [.scene bar.mainScene, .play Position.start.line (some bar.scene) false] := rfl
  rw [Compilation.instructions_of_passages bar.readable_passages bar.toList_source]
  show Instruction.stores (bar.program.instructions clearRests) = bar.stores clearRests
  rw [Program.instructions, body]
  generalize bar.program.patterns = patterns at *
  generalize bar.program.scenes = scenes at *
  -- A pattern makes no store where it is defined.
  have silent : Instruction.stores ((Voice.all.map fun voice =>
      Statement.pattern (bar.pattern voice)).flatMap
        (Program.statementInstructions patterns scenes clearRests)) = [] := rfl
  rw [List.flatMap_append, Instruction.stores_append, silent]
  simp only [List.flatMap_cons, List.flatMap_nil, Instruction.stores_append,
    Program.statementInstructions, given, Option.bind_some, found, scene, stores,
    List.append_assoc]
  rfl

/-- A step of a voice is the last value that the bar stores at its address, unless it is a rest that
is left out. -/
theorem last?_stores_voice (clearRests : Bool) (voice : Voice) {step : Nat}
    (bound : step < stepCount) :
    Store.last? (bar.stores clearRests) (voice.base + step) =
      if (bar.steps voice).getD step 0 ≠ 0 ∨ clearRests = true then
        some ((bar.steps voice).getD step 0) else none := by
  have range := voice.base_range
  have control : Store.last? [(Register.control, 1)] (voice.base + step) = none := by
    have place : Register.control = 0x1500 := rfl
    exact (Option.none_or).trans (if_neg (by dsimp only; omega))
  have scene : Store.last? (bar.sceneStores clearRests) (voice.base + step) =
      Store.last? (Instruction.stores (voice.writes clearRests (bar.steps voice)))
        (voice.base + step) := by
    refine Store.last?_flatMap_of_mem voice.mem_all fun other _ different => ?_
    refine Voice.last?_writes_elsewhere (fun there => different ?_) clearRests _
    exact Voice.eq_of_base there (by omega)
  -- The scene is stored twice, and the second time changes nothing.
  rw [stores, Store.last?_append, Store.last?_append, control, scene, Option.or_self,
    Option.none_or, Voice.last?_writes voice clearRests _ bound]

/-- A bar stores nothing but the steps of the voices and the control byte. -/
theorem last?_stores_elsewhere (clearRests : Bool) {address : Int}
    (free : ∀ voice : Voice, ¬(voice.base ≤ address ∧ address < voice.base + stepCount))
    (other : address ≠ Register.control) :
    Store.last? (bar.stores clearRests) address = none := by
  have scene : Store.last? (bar.sceneStores clearRests) address = none :=
    Store.last?_flatMap_eq_none fun voice _ =>
      Voice.last?_writes_elsewhere (free voice) clearRests _
  have control : Store.last? [(Register.control, 1)] address = none :=
    (Option.none_or).trans (if_neg (Ne.symm other))
  rw [stores, Store.last?_append, Store.last?_append, control, scene]
  rfl

/-- A bar starts the transport, and nothing in it stops the transport again. -/
theorem last?_stores_control (clearRests : Bool) :
    Store.last? (bar.stores clearRests) Register.control = some 1 := by
  rw [stores, Store.last?_append]
  rfl

/-- A bar stores in the audio region only. -/
theorem inRegion_stores (clearRests : Bool) :
    ∀ store ∈ bar.stores clearRests, inRegion store.1 = true := by
  have scene : ∀ store ∈ bar.sceneStores clearRests, inRegion store.1 = true := by
    intro store member
    obtain ⟨voice, _, inside⟩ := List.mem_flatMap.mp member
    obtain ⟨step, bound, _, rfl⟩ := Voice.mem_stores_writes.mp inside
    have range := voice.base_range
    exact inRegion_iff.mpr (by dsimp only; omega)
  simp only [stores, List.forall_mem_append]
  exact ⟨⟨scene, scene⟩, List.forall_mem_singleton.mpr rfl⟩

/-- A fresh host with the stores of a bar. -/
def loaded (clearRests : Bool) (tempo : Int) : Host :=
  (Host.start tempo).putStores (bar.stores clearRests)

variable (clearRests : Bool) (tempo : Int)

/-- A host with a bar has all of its memory. -/
theorem size_loaded : (bar.loaded clearRests tempo).memory.size = memorySize := by
  rw [loaded, Host.size_putStores, Host.size_start]

/-- The step bytes of a loaded bar are its step values. -/
theorem peek_loaded_voice (voice : Voice) {step : Nat} (bound : step < stepCount) :
    (bar.loaded clearRests tempo).peek (voice.base + step) =
      byteOf ((bar.steps voice).getD step 0) := by
  have range := voice.base_range
  have inside : Host.inMemory (voice.base + step) = true := Host.inMemory_iff.mpr (by omega)
  have untimed : Register.tempo ≠ voice.base + step := by
    have place : Register.tempo = 0x1501 := rfl
    omega
  rw [loaded, Host.peek_putStores (Host.size_start tempo) _ inside, Host.peek_start tempo inside,
    if_neg untimed, bar.last?_stores_voice clearRests voice bound]
  split
  · rfl
  · next skipped =>
    -- A rest that is left out is a zero of the fresh host.
    have rest : (bar.steps voice).getD step 0 = 0 := by
      by_cases zero : (bar.steps voice).getD step 0 = 0
      · exact zero
      · exact absurd (.inl zero) skipped
    rw [rest]
    rfl

/-- A host with a bar plays, and does not repeat. -/
theorem peek_loaded_control : (bar.loaded clearRests tempo).peek Register.control = 1 := by
  rw [loaded, Host.peek_putStores (Host.size_start tempo) _ (by decide), last?_stores_control]
  rfl

/-- What a bar does not store is zero in a fresh host, but for the tempo. -/
theorem peek_loaded_elsewhere {address : Int} (inside : Host.inMemory address = true)
    (free : ∀ voice : Voice, ¬(voice.base ≤ address ∧ address < voice.base + stepCount))
    (other : address ≠ Register.control) (untimed : Register.tempo ≠ address) :
    (bar.loaded clearRests tempo).peek address = 0 := by
  rw [loaded, Host.peek_putStores (Host.size_start tempo) _ inside,
    last?_stores_elsewhere bar clearRests free other, Host.peek_start tempo inside, if_neg untimed]
  rfl

/-- The registers of the sounds are zero in a loaded bar. -/
theorem peek_loaded_sound {address : Int}
    (sound : address ∈ [Register.kickPitch, Register.snareTone, Register.snareSnap,
      Register.bassModulation, Register.noiseDecay]) :
    (bar.loaded clearRests tempo).peek address = 0 := by
  simp only [List.mem_cons, List.not_mem_nil, or_false] at sound
  rcases sound with rfl | rfl | rfl | rfl | rfl <;>
    exact bar.peek_loaded_elsewhere clearRests tempo (by decide)
      (fun voice => by cases voice <;> decide) (by decide) (by decide)

/-- The trigger of a step value carries the value. -/
theorem event_triggerOf (voice : Voice) {value : Int} (byte : IsByte value) :
    ((bar.loaded clearRests tempo).triggerOf (byteOf value) voice).event =
      (voice, voice.parameters value) := by
  have silent := fun address => @peek_loaded_sound bar clearRests tempo address
  have note : ((byteOf value).toNat : Int) = value := by
    obtain ⟨low, high⟩ := byte
    rw [IntelHex.toNat_byteOf]
    omega
  cases voice with
  | kick => rw [Host.triggerOf, silent _ (by simp)]; rfl
  | snare => rw [Host.triggerOf, silent _ (by simp), silent _ (by simp)]; rfl
  | lead => rw [Host.triggerOf, Trigger.event, note]; rfl
  | bass => rw [Host.triggerOf, Trigger.event, note, silent _ (by simp)]; rfl
  | noise => rw [Host.triggerOf, silent _ (by simp)]; rfl

/-- Every step of a bar is a byte, also beyond the last. -/
theorem isByte_step (voice : Voice) (step : Nat) : IsByte ((bar.steps voice).getD step 0) := by
  refine isByte_getD (fun value member => ?_) step
  have range := Steps.decode_range _ value member
  exact ⟨range.1, by omega⟩

/-- A step of a loaded bar fires the voices that do not rest there. -/
theorem triggers_loaded {step : Nat} (bound : step < stepCount) :
    ((bar.loaded clearRests tempo).triggers step).map Trigger.event =
      Voice.all.filterMap fun voice =>
        let value := (bar.steps voice).getD step 0
        if value = 0 then none else some (voice, voice.parameters value) := by
  rw [Host.triggers, List.map_filterMap]
  refine congrArg (List.filterMap · Voice.all) (funext fun voice => ?_)
  have byte := bar.isByte_step voice step
  dsimp only
  rw [bar.peek_loaded_voice clearRests tempo voice bound]
  by_cases rest : (bar.steps voice).getD step 0 = 0
  · rw [rest]
    rfl
  · have sounds : byteOf ((bar.steps voice).getD step 0) ≠ 0 := fun zero =>
      rest (byteOf_injective byte ⟨by decide, by decide⟩ zero)
    rw [if_neg sounds, if_neg rest, Option.map_some,
      bar.event_triggerOf clearRests tempo voice byte]

/-- A loaded bar plays once. -/
theorem ticks_loaded :
    ∃ last fired, (bar.loaded clearRests tempo).ticks stepCount =
        (last, fired, List.replicate 15 true ++ [false]) ∧
      fired.map Trigger.event = bar.events := by
  have atStart : (bar.loaded clearRests tempo).step = 0 := by
    have zero : (bar.loaded clearRests tempo).peek Register.step = 0 :=
      bar.peek_loaded_elsewhere clearRests tempo (by decide)
        (fun voice => by cases voice <;> decide) (by decide) (by decide)
    rw [Host.step, zero]
    rfl
  have moved := Host.Moved.refl (bar.size_loaded clearRests tempo)
  rw [peek_loaded_control, atStart] at moved
  obtain ⟨last, ticked, _⟩ := moved.ticks_bar (by decide) (by decide)
    (show 0 + (15 + 1) = stepCount from rfl)
  refine ⟨last, _, ticked, ?_⟩
  rw [List.map_flatMap, events, List.range_eq_range']
  refine congrArg List.flatten (List.map_congr_left fun step member => ?_)
  have bounds := List.mem_range'_1.mp member
  exact bar.triggers_loaded clearRests tempo bounds.2

end Bar

namespace Compilation

/-- A bar compiles for every target. A fresh host that loads its instructions plays sixteen steps,
stops with the last of them, and fires exactly the steps of the bar that are no rests, in order. -/
theorem bar_plays_once (bar : Bar) (options : Options) {target : Target}
    (known : Target.ofName? options.target.shown = some target) (tempo : Int) :
    (ofSource options bar.source).success = true ∧
    ∃ instructions loaded count last fired,
      (ofSource options bar.source).instructions = some instructions ∧
      (Host.start tempo).loadInstructions instructions = (loaded, .ok count) ∧
      loaded.ticks 16 = (last, fired, List.replicate 15 true ++ [false]) ∧
      fired.map Trigger.event = bar.events := by
  have clean := bar.clean_source
  have stores := bar.stores_source options.clearRests
  have inside := bar.inRegion_stores options.clearRests
  rw [← stores] at inside
  have loads := (Host.start tempo).loadInstructions_eq_putStores inside
  rw [stores] at loads
  obtain ⟨last, fired, ticked, events⟩ := bar.ticks_loaded options.clearRests tempo
  exact ⟨success_of_clean clean known, _, _, _, last, fired, instructions_of_clean clean options,
    loads, ticked, events⟩

/-- A bar of patterns that are too short, empty or too long. -/
def raggedBar : Bar where
  name := Voice.name
  text
    | .kick => "x.......X"
    | .snare => ""
    | .lead => "C4.E4"
    | .bass => "9# \\"
    | .noise => "...............xx"
  scene := "loop"
  isName := fun voice => by cases voice <;> decide
  distinct := fun voice other => by cases voice <;> cases other <;> decide
  plain := fun voice => by cases voice <;> decide
  isSceneName := by decide

/-- Notes take two characters and one step, what is missing rests, and what is left over is not
played. -/
theorem bar_plays_once_ragged :
    (ofSource (.ofSettings .standard) raggedBar.source).success = true ∧
    ∃ instructions loaded count last fired,
      (ofSource (.ofSettings .standard) raggedBar.source).instructions = some instructions ∧
      (Host.start 120).loadInstructions instructions = (loaded, .ok count) ∧
      loaded.ticks 16 = (last, fired, List.replicate 15 true ++ [false]) ∧
      fired.map Trigger.event = [(.kick, [0]), (.lead, [60]), (.bass, [9, 0]), (.lead, [64]),
        (.kick, [0]), (.noise, [0])] := by
  have events : raggedBar.events = [(.kick, [0]), (.lead, [60]), (.bass, [9, 0]), (.lead, [64]),
      (.kick, [0]), (.noise, [0])] := by decide +kernel
  rw [← events]
  exact bar_plays_once raggedBar (.ofSettings .standard)
    (show Target.ofName? Settings.standard.target = some .assembly by decide) 120

end Compilation

end StepSequencer
