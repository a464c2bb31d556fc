import Mathlib.Data.List.Basic
import StepSequencer.Proofs.Clause.Names
import StepSequencer.Proofs.Host.Memory
import StepSequencer.Proofs.Program.Definitions
import StepSequencer.Proofs.Program.Voices
import StepSequencer.Proofs.Steps

/-!
# What a loaded program leaves at its voices

An assignment is executed where it stands in a scene, where it stands alone, and where its scene is
played. It gives a voice the steps of a pattern. Of patterns and of played scenes the last
definition of a name counts, also for what stands before it. A byte of a voice ends as the last
value that an executed assignment gives to its step, or the last one that sounds if rests are not
written. Nothing else in a program but a poke reaches the bytes of a voice.
-/
namespace StepSequencer

namespace Voice

/-- A voice is known by its own name alone. -/
theorem ofName?_eq_some_iff {name : String} {voice : Voice} :
    ofName? name = some voice ↔ name = voice.name := by
  constructor
  · intro known
    have same : (voice.name == name) = true :=
      List.find?_some (p := fun voice : Voice => voice.name == name) known
    exact (beq_iff_eq.mp same).symm
  · rintro rfl
    exact voice.ofName?_name

end Voice

namespace Program

variable (program : Program)

/-- The assignments that stand in a statement or in the scene that it plays. -/
def assignments : Statement → List Assignment
  | .scene definition => definition.assignments
  | .assign _ assignment => [assignment]
  | .play _ name _ => ((name.bind program.lastScene?).map Scene.assignments).getD []
  | _ => []

/-- The steps that an assignment gives to a voice, if it names the voice and a defined pattern. -/
def stepsFor? (voice : Voice) (assignment : Assignment) : Option (List Int) :=
  if assignment.voice = voice.name then
    (assignment.pattern.bind program.lastPattern?).map Pattern.steps
  else none

/-- The steps that the executed assignments give to a voice, in order. -/
def executed (voice : Voice) : List (List Int) :=
  (program.body.flatMap program.assignments).filterMap (program.stepsFor? voice)

/-- The value of a step that is written: any, or one that sounds. -/
def written? (clearRests : Bool) (step : Nat) (steps : List Int) : Option Int :=
  if steps.getD step 0 ≠ 0 ∨ clearRests = true then some (steps.getD step 0) else none

variable {program}

/-- A name that is not empty stands for the last item of that name. -/
theorem given?_bind_named {α : Type} {name : Option String} (named : name ≠ some "")
    (nameOf : α → String) (items : List α) :
    (given? name).bind (Index.ofList (items.map fun item => (nameOf item, item))).get? =
      name.bind (lastNamed? nameOf items) := by
  cases name with
  | none => rfl
  | some name =>
    rw [given?_of_ne fun empty => named (congrArg some empty)]
    exact (Index.lists_named nameOf items).get?_eq name

/-- What an assignment writes at a byte of a voice. -/
theorem last?_assignmentWrites (voice : Voice) (clearRests : Bool) {step : Nat}
    (bound : step < stepCount) {assignment : Assignment} (named : assignment.pattern ≠ some "") :
    Store.last? (Instruction.stores (assignmentWrites program.patterns clearRests assignment))
      (voice.base + step) =
        (program.stepsFor? voice assignment).bind (written? clearRests step) := by
  have known : (given? assignment.pattern).bind program.patterns.get? =
      assignment.pattern.bind program.lastPattern? := given?_bind_named named Pattern.name _
  have silent : Store.last? (Instruction.stores []) (voice.base + step) = none := rfl
  rw [assignmentWrites, known, stepsFor?]
  cases assignment.pattern.bind program.lastPattern? with
  | none =>
    rw [Option.map_none, ite_self]
    exact silent
  | some pattern =>
    by_cases own : assignment.voice = voice.name
    · rw [if_pos own, Voice.ofName?_eq_some_iff.mpr own]
      exact voice.last?_writes clearRests pattern.steps bound
    · rw [if_neg own]
      cases other : Voice.ofName? assignment.voice with
      | none => exact silent
      | some another =>
        refine Voice.last?_writes_elsewhere (fun inside => ?_) clearRests pattern.steps
        have same : another = voice := Voice.eq_of_base inside (by omega)
        exact own (same ▸ Voice.ofName?_eq_some_iff.mp other)

/-- What a statement other than a poke there writes at a byte of a voice is what its assignments
write. -/
theorem last?_statementInstructions (voice : Voice) (clearRests : Bool) {step : Nat}
    (bound : step < stepCount) {statement : Statement} (named : statement.Named)
    (unpoked : ∀ line value, statement ≠ .poke line (voice.base + step) value) :
    Store.last? (Instruction.stores
      (statementInstructions program.patterns program.scenes clearRests statement))
        (voice.base + step) =
      Store.last? ((program.assignments statement).flatMap fun assignment =>
        Instruction.stores (assignmentWrites program.patterns clearRests assignment))
          (voice.base + step) := by
  have range := voice.base_range
  have elsewhere {address : Int} (apart : address ≠ voice.base + step) (value : Int) :
      Store.last? [(address, value)] (voice.base + step) = none := by
    rw [Store.last?, if_neg apart]
    rfl
  have register {address : Int} (beyond : 0x1400 ≤ address) : address ≠ voice.base + step := by
    omega
  cases statement with
  | tempo line bpm => exact elsewhere (register (by decide)) bpm
  | swing line percent => exact elsewhere (register (by decide)) percent
  | stop line => exact elsewhere (register (by decide)) 0
  | scene definition => exact congrArg (Store.last? · _) (stores_sceneInstructions ..)
  | assign line assignment =>
    rw [assignments, List.flatMap_singleton]
    rfl
  | play line name looped =>
    have found : (given? name).bind program.scenes.get? = name.bind program.lastScene? :=
      given?_bind_named named Scene.name _
    have control := elsewhere (register (show 0x1400 ≤ Register.control by decide))
      (if looped then 3 else 1)
    rw [statementInstructions, Instruction.stores_append, Store.last?_append, found, assignments]
    refine (congrArg (Option.or · _) control).trans ?_
    rw [Option.none_or]
    cases name.bind program.lastScene? with
    | none => rfl
    | some scene => exact congrArg (Store.last? · _) (stores_sceneInstructions ..)
  | poke line address value =>
    exact elsewhere (fun here => unpoked line value (here ▸ rfl)) value
  | _ => rfl

/-- The assignments of a program without empty names ask for no pattern by an empty name. -/
theorem named_assignments (named : ∀ statement ∈ program.body, statement.Named) :
    ∀ statement ∈ program.body, ∀ assignment ∈ program.assignments statement,
      assignment.pattern ≠ some "" := by
  intro statement member
  cases statement with
  | scene definition => exact named _ member
  | assign line assignment => exact List.forall_mem_singleton.mpr (named _ member)
  | play line name looped =>
    rw [assignments]
    cases found : name.bind program.lastScene? with
    | none => exact List.forall_mem_nil _
    | some scene =>
      obtain ⟨name, _, last⟩ := Option.bind_eq_some_iff.mp found
      obtain ⟨source, inside, defines⟩ := List.mem_filterMap.mp (mem_of_lastNamed? last)
      cases source <;> try contradiction
      obtain rfl := Option.some.inj defines
      exact named _ inside
  | _ => exact List.forall_mem_nil _

/-- The last store of a program at a byte of a voice is that of its executed assignments. -/
theorem last?_instructions (voice : Voice) (clearRests : Bool) {step : Nat}
    (bound : step < stepCount) (named : ∀ statement ∈ program.body, statement.Named)
    (unpoked : ∀ line value, .poke line (voice.base + step) value ∉ program.body) :
    Store.last? (Instruction.stores (program.instructions clearRests)) (voice.base + step) =
      ((program.executed voice).filterMap (written? clearRests step)).getLast? := by
  have each : program.body.filterMap (fun statement => Store.last? (Instruction.stores
        (statementInstructions program.patterns program.scenes clearRests statement))
          (voice.base + step)) =
      program.body.filterMap fun statement =>
        Store.last? ((program.assignments statement).flatMap fun assignment =>
          Instruction.stores (assignmentWrites program.patterns clearRests assignment))
            (voice.base + step) :=
    List.filterMap_congr fun statement member =>
      last?_statementInstructions voice clearRests bound (named statement member)
        fun line value same => unpoked line value (same ▸ member)
  have steps : (program.body.flatMap program.assignments).filterMap (fun assignment =>
        Store.last? (Instruction.stores
          (assignmentWrites program.patterns clearRests assignment)) (voice.base + step)) =
      (program.body.flatMap program.assignments).filterMap fun assignment =>
        (program.stepsFor? voice assignment).bind (written? clearRests step) := by
    refine List.filterMap_congr fun assignment member => ?_
    obtain ⟨statement, inside, own⟩ := List.mem_flatMap.mp member
    exact last?_assignmentWrites voice clearRests bound
      (named_assignments named statement inside assignment own)
  rw [instructions, Instruction.stores_flatMap, Store.last?_flatMap, each, ← Store.last?_flatMap,
    ← List.flatMap_assoc, Store.last?_flatMap, steps, executed, List.filterMap_filterMap]

/-- The values that are written are all that were given, or those that sound. -/
theorem filterMap_written? (clearRests : Bool) (step : Nat) (rows : List (List Int)) :
    rows.filterMap (written? clearRests step) =
      if clearRests then rows.map fun steps => steps.getD step 0
      else (rows.map fun steps => steps.getD step 0).filter fun value => value != 0 := by
  induction rows with
  | nil => cases clearRests <;> rfl
  | cons steps rows ih =>
    rw [List.filterMap_cons, ih, written?, List.map_cons, List.filter_cons]
    generalize steps.getD step 0 = value
    by_cases rest : value = 0 <;> cases clearRests <;> simp [rest]

/-- The steps of an executed assignment are those of a pattern of the program. -/
theorem mem_executed {voice : Voice} {steps : List Int} (given : steps ∈ program.executed voice) :
    ∃ pattern ∈ program.body.filterMap Statement.pattern?, pattern.steps = steps := by
  obtain ⟨assignment, _, found⟩ := List.mem_filterMap.mp given
  rw [stepsFor?] at found
  split at found
  · obtain ⟨pattern, known, same⟩ := Option.map_eq_some_iff.mp found
    obtain ⟨name, _, last⟩ := Option.bind_eq_some_iff.mp known
    exact ⟨pattern, mem_of_lastNamed? last, same⟩
  · contradiction

end Program

/-- The steps of a pattern that was read are those of its text. -/
theorem Parse.steps_eq_decode (tokens : List (Token Int)) :
    ∀ pattern ∈ (ofTokens tokens).program.body.filterMap Statement.pattern?,
      pattern.steps = Steps.decode pattern.text.toList := by
  intro pattern member
  obtain ⟨statement, inside, defines⟩ := List.mem_filterMap.mp member
  obtain ⟨clause, _, read⟩ := List.mem_filterMap.mp inside
  cases clause
  case pattern line name text =>
    obtain rfl := Option.some.inj read
    obtain rfl := Option.some.inj defines
    rfl
  case unknown | bare | stray => contradiction
  all_goals
    obtain rfl := Option.some.inj read
    contradiction

/-- The steps of patterns that were read are bytes. -/
theorem Parse.isByte_steps (tokens : List (Token Int)) :
    ∀ pattern ∈ (ofTokens tokens).program.body.filterMap Statement.pattern?,
      ∀ value ∈ pattern.steps, IsByte value := by
  intro pattern member value step
  rw [steps_eq_decode tokens pattern member] at step
  have range := Steps.decode_range _ value step
  exact ⟨range.1, by omega⟩

namespace Host

/-- After a program was loaded, a byte of a voice at which it has no poke holds the last value that
an executed assignment gives to the step, or the last one that is not zero if rests are not written.
Without such a value it holds what it held before. -/
theorem peek_executed {tokens : List (Token Int)} (named : Token.Named tokens) {host final : Host}
    (sized : host.memory.size = memorySize) {clearRests : Bool} {count : Nat}
    (loaded : host.loadInstructions ((Parse.ofTokens tokens).program.instructions clearRests) =
      (final, .ok count))
    (voice : Voice) {step : Nat} (bound : step < stepCount)
    (unpoked : ∀ line value,
      .poke line (voice.base + step) value ∉ (Parse.ofTokens tokens).program.body) :
    let given : List Int :=
      ((Parse.ofTokens tokens).program.executed voice).map fun steps => steps.getD step 0
    ((final.peek (voice.base + step)).toNat : Int) =
      (if clearRests then given else given.filter fun value => value != 0).getLast?.getD
        ((host.peek (voice.base + step)).toNat : Int) := by
  intro given
  have range := voice.base_range
  have inside : inMemory (voice.base + step) = true := inMemory_iff.mpr (by omega)
  have bytes : ∀ value ∈ given, IsByte value := by
    intro value member
    obtain ⟨steps, executed, rfl⟩ := List.mem_map.mp member
    obtain ⟨pattern, known, rfl⟩ := Program.mem_executed executed
    exact isByte_getD (Parse.isByte_steps tokens pattern known) step
  have last :=
    Program.last?_instructions voice clearRests bound (Parse.named_ofTokens named) unpoked
  rw [Program.filterMap_written?] at last
  rw [eq_putStores_of_loadStores loaded, peek_putStores sized _ inside, last]
  cases found : (if clearRests then given else given.filter fun value => value != 0).getLast? with
  | none => rfl
  | some value =>
    have member : value ∈ given := by
      have among := List.mem_of_getLast? found
      split at among
      · exact among
      · exact (List.mem_filter.mp among).1
    obtain ⟨low, high⟩ := bytes value member
    show ((byteOf value).toNat : Int) = value
    rw [IntelHex.toNat_byteOf]
    omega

/-- A text that plays a scene before and after it is defined again. -/
def redefinedSource : String :=
  "@pattern a \"x.x\" @scene s kick: a\n@play s\n@pattern b \"..X\" @scene s kick: b\n@play s\n" ++
    "kick: lost @poke $1020 9"

/-- The first step keeps its only trigger, and the accent of the new definition takes the third. -/
theorem peek_executed_redefined :
    let program := (Parse.ofTokens (Token.scan redefinedSource).1).program
    ∃ final count, (start 120).loadInstructions (program.instructions false) = (final, .ok count) ∧
      ((final.peek (Voice.kick.base + (0 : Nat))).toNat : Int) = 1 ∧
      ((final.peek (Voice.kick.base + (2 : Nat))).toNat : Int) = 127 := by
  intro program
  have read : program =
      ⟨[.pattern ⟨"a", "x.x", 1 :: 0 :: 1 :: List.replicate 13 0, 1⟩,
        .scene ⟨"s", [⟨"kick", some "a"⟩], 1⟩, .play 2 (some "s") false,
        .pattern ⟨"b", "..X", 0 :: 0 :: 127 :: List.replicate 13 0, 3⟩,
        .scene ⟨"s", [⟨"kick", some "b"⟩], 3⟩, .play 4 (some "s") false,
        .assign 5 ⟨"kick", some "lost"⟩, .poke 5 0x1020 9]⟩ := by decide +kernel
  have regional : ((Instruction.stores (program.instructions false)).all
      fun store => inRegion store.1) = true := by
    rw [read]
    decide
  have loaded := loadInstructions_eq_putStores (start 120) (List.all_eq_true.mp regional)
  have kick : program.executed .kick = (1 :: 0 :: 1 :: List.replicate 13 0) ::
      List.replicate 3 (0 :: 0 :: 127 :: List.replicate 13 0) := by
    rw [read]
    decide
  have unpoked (step : Nat) (bound : step < stepCount) (line value : Int) :
      .poke line (Voice.kick.base + step) value ∉ program.body := by
    have base : Voice.kick.base = 0x1000 := rfl
    have count : stepCount = 16 := rfl
    rw [read]
    simp only [List.mem_cons, reduceCtorEq, Statement.poke.injEq, List.not_mem_nil, or_false,
      false_or, not_and]
    omega
  have byte (step : Nat) (bound : step < stepCount) :=
    peek_executed (Token.named_scan redefinedSource) (size_start 120) loaded .kick bound
      (unpoked step bound)
  refine ⟨_, _, loaded, (byte 0 (by decide)).trans ?_, (byte 2 (by decide)).trans ?_⟩
  all_goals
    rw [kick]
    rfl

end Host

end StepSequencer
