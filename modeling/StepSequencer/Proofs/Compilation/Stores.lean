import StepSequencer.Proofs.Compilation.Phases
import StepSequencer.Proofs.Host.Memory
import StepSequencer.Proofs.Index
import StepSequencer.Proofs.Program.Voices
import StepSequencer.Proofs.Steps

/-!
# What a compiled program stores

Every store of a compiled program is of a byte: tempo and swing are moved into their range when
they are read, steps are decoded as small numbers, and the checks refuse every other poke. All
stores but the pokes go to the audio region, and each poke elsewhere has a warning. So a program
without such a warning can be loaded into any host, and touches nothing outside the region.
-/
namespace StepSequencer

/-- A byte for the audio region. -/
def Store.Regional (store : Store) : Prop := inRegion store.1 = true ∧ IsByte store.2

/-- Steps that are bytes give bytes for the region. -/
theorem Voice.regional_writes (voice : Voice) (clearRests : Bool) {steps : List Int}
    (bytes : ∀ value ∈ steps, IsByte value) :
    ∀ store ∈ Instruction.stores (voice.writes clearRests steps), Store.Regional store := by
  intro store member
  obtain ⟨step, bound, _, rfl⟩ := mem_stores_writes.mp member
  have range := voice.base_range
  exact ⟨inRegion_iff.mpr (by dsimp only; omega), isByte_getD bytes step⟩

namespace Program

variable {patterns : Index Pattern}

/-- An index in which the steps of every pattern are bytes. -/
def HoldsBytes (patterns : Index Pattern) : Prop :=
  ∀ name pattern, patterns.get? name = some pattern → ∀ value ∈ pattern.steps, IsByte value

/-- An assignment stores bytes in the region. -/
theorem regional_assignmentWrites (bytes : HoldsBytes patterns) (clearRests : Bool)
    (assignment : Assignment) :
    ∀ store ∈ Instruction.stores (assignmentWrites patterns clearRests assignment),
      Store.Regional store := by
  unfold assignmentWrites
  split
  · next pattern voice found known =>
    obtain ⟨name, _, got⟩ := Option.bind_eq_some_iff.mp found
    exact voice.regional_writes clearRests (bytes name pattern got)
  · exact List.forall_mem_nil _

/-- A scene stores bytes in the region. -/
theorem regional_sceneInstructions (bytes : HoldsBytes patterns) (clearRests : Bool)
    (scene : Scene) :
    ∀ store ∈ Instruction.stores (sceneInstructions patterns clearRests scene),
      Store.Regional store := by
  rw [stores_sceneInstructions]
  intro store member
  obtain ⟨assignment, _, here⟩ := List.mem_flatMap.mp member
  exact regional_assignmentWrites bytes clearRests assignment store here

end Program

namespace Problem

/-- Whether an address outside the audio region is the problem. -/
def isOutside : Problem → Bool
  | addressOutsideRegion _ => true
  | _ => false

end Problem

/-- Whether a finding is the checks' warning of an address outside the audio region. -/
def Diagnostic.warnsOutside (diagnostic : Diagnostic) : Bool :=
  diagnostic.phase == some .linter && diagnostic.problem.isOutside

namespace Statement

/-- The numbers of a statement that reach memory are bytes. -/
def FitsBytes : Statement → Prop
  | tempo _ bpm => IsByte bpm
  | swing _ percent => IsByte percent
  | pattern definition => ∀ value ∈ definition.steps, IsByte value
  | poke _ _ value => IsByte value
  | _ => True

/-- A statement that was read and that passes the checks stores bytes only. -/
theorem fitsBytes_of_clause {clause : Clause Int} {statement : Statement} {defined : List String}
    (read : clause.statement? = some statement) (passes : statement.errors defined = []) :
    statement.FitsBytes := by
  cases clause
  case tempo line value =>
    obtain rfl := Option.some.inj read
    simp only [FitsBytes, IsByte, clamp, tempoMin, tempoMax]
    omega
  case swing line value =>
    obtain rfl := Option.some.inj read
    simp only [FitsBytes, IsByte, clamp, swingMin, swingMax]
    omega
  case pattern line name text =>
    obtain rfl := Option.some.inj read
    intro value member
    have range := Steps.decode_range _ value member
    exact ⟨range.1, by omega⟩
  case poke line address value =>
    obtain rfl := Option.some.inj read
    rw [errors] at passes
    split at passes
    · next byte => exact byte
    · contradiction
  case unknown | bare | stray => contradiction
  -- No number of the other clauses reaches memory.
  all_goals
    obtain rfl := Option.some.inj read
    trivial

variable {patterns : Index Pattern} {statement : Statement}

/-- All that a statement stores, unless it is a poke, are bytes for the region. -/
theorem regional_of_not_poke (bytes : Program.HoldsBytes patterns) (scenes : Index Scene)
    (clearRests : Bool) (fits : statement.FitsBytes)
    (other : ∀ line address value, statement ≠ .poke line address value) :
    ∀ store ∈ Instruction.stores
      (Program.statementInstructions patterns scenes clearRests statement),
      Store.Regional store := by
  cases statement
  case poke line address value => exact absurd rfl (other line address value)
  case tempo line bpm =>
    show ∀ store ∈ [((Register.tempo, bpm) : Store)], Store.Regional store
    exact List.forall_mem_singleton.mpr ⟨rfl, fits⟩
  case swing line percent =>
    show ∀ store ∈ [((Register.swing, percent) : Store)], Store.Regional store
    exact List.forall_mem_singleton.mpr ⟨rfl, fits⟩
  case stop line =>
    show ∀ store ∈ [((Register.control, 0) : Store)], Store.Regional store
    exact List.forall_mem_singleton.mpr ⟨rfl, by decide, by decide⟩
  case scene definition => exact Program.regional_sceneInstructions bytes clearRests definition
  case assign line assignment =>
    exact Program.regional_assignmentWrites bytes clearRests assignment
  case play line name looped =>
    have control : ∀ store ∈ [((Register.control, if looped then 3 else 1) : Store)],
        Store.Regional store := by
      refine List.forall_mem_singleton.mpr ⟨rfl, ?_⟩
      cases looped <;> exact ⟨by decide, by decide⟩
    rw [Program.statementInstructions, Instruction.stores_append, List.forall_mem_append]
    refine ⟨?_, control⟩
    split
    · next scene _ => exact Program.regional_sceneInstructions bytes clearRests scene
    · exact List.forall_mem_nil _
  all_goals exact List.forall_mem_nil _

/-- A warning of a voice is not one of an address. -/
theorem isOutside_voiceWarnings (line : Int) (voice : String) :
    ∀ warning ∈ voiceWarnings line voice, warning.problem.isOutside = false := by
  unfold voiceWarnings
  split
  · exact List.forall_mem_nil _
  · exact List.forall_mem_singleton.mpr rfl

/-- Only pokes are warned of for their address. -/
theorem isOutside_warnings_of_not_poke
    (other : ∀ line address value, statement ≠ .poke line address value) :
    ∀ warning ∈ statement.warnings, warning.problem.isOutside = false := by
  cases statement
  case poke line address value => exact absurd rfl (other line address value)
  case assign line assignment => exact isOutside_voiceWarnings line assignment.voice
  case param line voice parameter value => exact isOutside_voiceWarnings line (voice.getD "")
  case pattern definition =>
    rw [warnings]
    split
    · exact List.forall_mem_nil _
    · exact List.forall_mem_singleton.mpr rfl
  all_goals exact List.forall_mem_nil _

/-- A statement stores bytes, and it has a warning for each of them that goes elsewhere than to the
region. -/
theorem stores_statement (bytes : Program.HoldsBytes patterns) (scenes : Index Scene)
    (clearRests : Bool) (fits : statement.FitsBytes) :
    let stores := Instruction.stores
      (Program.statementInstructions patterns scenes clearRests statement)
    (∀ store ∈ stores, IsByte store.2) ∧
      stores.countP (fun store => !inRegion store.1) =
        statement.warnings.countP fun warning => warning.problem.isOutside := by
  intro stores
  by_cases poke : ∃ line address value, statement = .poke line address value
  · obtain ⟨line, address, value, rfl⟩ := poke
    refine ⟨List.forall_mem_singleton.mpr fits, ?_⟩
    show [((address, value) : Store)].countP _ = List.countP _ (if inRegion address then _ else _)
    cases inside : inRegion address <;> simp [inside, Diagnostic.atLine, Problem.isOutside]
  · have other : ∀ line address value, statement ≠ .poke line address value :=
      fun line address value same => poke ⟨line, address, value, same⟩
    have regional := regional_of_not_poke bytes scenes clearRests fits other
    have silent := isOutside_warnings_of_not_poke other
    have inside : stores.countP (fun store => !inRegion store.1) = 0 :=
      List.countP_eq_zero.mpr fun store member => by simp [(regional store member).1]
    have unwarned : (statement.warnings.countP fun warning => warning.problem.isOutside) = 0 :=
      List.countP_eq_zero.mpr fun warning member => by simp [silent warning member]
    exact ⟨fun store member => (regional store member).2, inside.trans unwarned.symm⟩

end Statement

namespace Program

variable {program : Program}

/-- The patterns of a program hold what its statements define. -/
theorem holdsBytes_patterns (fits : ∀ statement ∈ program.body, statement.FitsBytes) :
    HoldsBytes program.patterns := by
  intro name pattern found
  obtain ⟨defined, member, same⟩ := List.mem_map.mp (Index.mem_of_get?_ofList found)
  obtain ⟨statement, inside, here⟩ := List.mem_filterMap.mp member
  obtain ⟨_, rfl⟩ := Prod.mk.inj same
  cases statement <;> try contradiction
  obtain rfl := Option.some.inj here
  exact fits _ inside

/-- A program stores bytes, and has a warning for each of them that goes elsewhere than to the
region. -/
theorem stores_instructions (fits : ∀ statement ∈ program.body, statement.FitsBytes)
    (clearRests : Bool) :
    let stores := Instruction.stores (program.instructions clearRests)
    (∀ store ∈ stores, IsByte store.2) ∧
      stores.countP (fun store => !inRegion store.1) =
        program.lintWarnings.countP fun warning => warning.problem.isOutside := by
  have bytes := holdsBytes_patterns fits
  have single statement (member : statement ∈ program.body) :=
    Statement.stores_statement bytes program.scenes clearRests (fits statement member)
  rw [instructions, Instruction.stores_flatMap, lintWarnings]
  constructor
  · intro store member
    obtain ⟨statement, inside, here⟩ := List.mem_flatMap.mp member
    exact (single statement inside).1 store here
  · rw [List.countP_flatMap, List.countP_flatMap]
    exact congrArg List.sum
      (List.map_congr_left fun statement inside => (single statement inside).2)

end Program

namespace Compilation

variable {source : String}

/-- The statements of a clean source store bytes only. -/
theorem fitsBytes_of_clean (clean : Clean source) :
    ∀ statement ∈ (programOf source).body, statement.FitsBytes := by
  intro statement member
  have passes := List.flatMap_eq_nil_iff.mp clean.checked statement member
  obtain ⟨clause, _, read⟩ := List.mem_filterMap.mp member
  exact Statement.fitsBytes_of_clause read passes

/-- Among the warnings of a source, those of addresses outside the region are the checks'. -/
theorem countP_warnsOutside (source : String) :
    (warningsOf source).countP Diagnostic.warnsOutside =
      (programOf source).lintWarnings.countP fun warning => warning.problem.isOutside := by
  have parser : ((reading source).warnings.map (Diagnostic.inPhase .parser)).countP
      Diagnostic.warnsOutside = 0 := by
    rw [List.countP_map]
    exact List.countP_eq_zero.mpr fun warning _ => Bool.false_ne_true
  rw [warningsOf, List.countP_append, parser, Nat.zero_add, List.countP_map]
  rfl

/-- Every store of a compiled program is of a byte, and the program has as many warnings of
addresses outside the region as stores there. Without such a warning it can be loaded into any
host, and no byte outside the region changes. -/
theorem stores_of_instructions (options : Options) (source : String)
    {instructions : List Instruction}
    (made : (ofSource options source).instructions = some instructions) :
    (∀ store ∈ Instruction.stores instructions, 0 ≤ store.2 ∧ store.2 ≤ 255) ∧
    (Instruction.stores instructions).countP (fun store => !inRegion store.1) =
      (ofSource options source).warnings.countP Diagnostic.warnsOutside ∧
    ((∀ warning ∈ (ofSource options source).warnings, warning.warnsOutside = false) →
      ∀ host : Host, ∃ loaded, host.loadInstructions instructions =
          (loaded, .ok (Instruction.stores instructions).length) ∧
        loaded.memory.size = host.memory.size ∧
        ∀ place : Nat, inRegion place = false →
          loaded.memory[place]? = host.memory[place]?) := by
  have clean := clean_of_instructions made
  obtain rfl := Option.some.inj ((instructions_of_clean clean options).symm.trans made)
  obtain ⟨bytes, count⟩ := Program.stores_instructions (fitsBytes_of_clean clean) options.clearRests
  rw [warnings_of_clean clean options]
  rw [← countP_warnsOutside] at count
  refine ⟨bytes, count, fun silent host => ?_⟩
  have unwarned : (warningsOf source).countP Diagnostic.warnsOutside = 0 :=
    List.countP_eq_zero.mpr fun warning member => by simp [silent warning member]
  have inside : ∀ store ∈ Instruction.stores ((programOf source).instructions options.clearRests),
      inRegion store.1 = true := by
    intro store member
    simpa using List.countP_eq_zero.mp (count.trans unwarned) store member
  refine ⟨_, host.loadInstructions_eq_putStores inside, host.size_putStores _, ?_⟩
  intro place outside
  apply host.getElem?_putStores
  rintro store member here
  rw [← here, inside store member] at outside
  contradiction

/-- A tempo that is too fast is stored as the fastest, and the last byte of the region can be poked
into a fresh host. -/
theorem stores_of_instructions_edge :
    (ofSource (.ofSettings .standard) "@tempo 300\n@poke $15FF 255\n@play\n").instructions =
      some [.tempo 255, .write 0x1501 255, .write 0x15FF 255, .write 0x1500 1, .play] ∧
    (ofSource (.ofSettings .standard) "@tempo 300\n@poke $15FF 255\n@play\n").warnings ≠ [] ∧
    ∃ loaded, (Host.start 120).loadInstructions
        [.tempo 255, .write 0x1501 255, .write 0x15FF 255, .write 0x1500 1, .play] =
        (loaded, .ok 3) ∧
      loaded.memory.size = (Host.start 120).memory.size ∧
      ∀ place : Nat, inRegion place = false →
        loaded.memory[place]? = (Host.start 120).memory[place]? := by
  have clean : Clean "@tempo 300\n@poke $15FF 255\n@play\n" := by decide +kernel
  have program : (programOf "@tempo 300\n@poke $15FF 255\n@play\n").instructions false =
      [.tempo 255, .write 0x1501 255, .write 0x15FF 255, .write 0x1500 1, .play] := by
    decide +kernel
  have made : (ofSource (.ofSettings .standard)
      "@tempo 300\n@poke $15FF 255\n@play\n").instructions =
      some [.tempo 255, .write 0x1501 255, .write 0x15FF 255, .write 0x1500 1, .play] :=
    (instructions_of_clean clean _).trans (congrArg some program)
  have found : warningsOf "@tempo 300\n@poke $15FF 255\n@play\n" =
      [⟨.tempoOutOfRange 300, some 1, none, some .parser⟩] := by decide +kernel
  have warnings := (warnings_of_clean clean (.ofSettings .standard)).trans found
  have silent : ∀ warning ∈ (ofSource (.ofSettings .standard)
      "@tempo 300\n@poke $15FF 255\n@play\n").warnings, warning.warnsOutside = false := by
    rw [warnings]
    decide
  refine ⟨made, by rw [warnings]; decide, ?_⟩
  exact (stores_of_instructions _ _ made).2.2 silent (Host.start 120)

end Compilation

end StepSequencer
