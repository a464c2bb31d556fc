import StepSequencer.Compilation
import StepSequencer.Proofs.Clause.Numbers
import StepSequencer.Proofs.Memory.Stores
import StepSequencer.Proofs.Program.Expansion

/-!
# Compiling with care

Token lists, programs and instruction lists may come from elsewhere, and then reading a number,
lowering a statement or looking up an argument can fail. Here a compilation takes those ways:
numbers are documents that have to be whole numbers, entries have to be statements, and instructions
are records that have to have their arguments. On what the phases hand to each other none of this
fails, and the outcome is that of a compilation as such.
-/
namespace StepSequencer

namespace Record

/-- The writes among the records of instructions are the records of their stores. -/
theorem writes_record (instructions : List Instruction) :
    writes (instructions.map Instruction.record) =
      (Instruction.stores instructions).map fun store =>
        (Instruction.write store.1 store.2).record := by
  induction instructions with
  | nil => rfl
  | cons instruction instructions ih =>
    cases instruction with
    | write address value => exact congrArg (List.cons _) ih
    | _ => exact ih

/-- The writes of instructions have all their operands. -/
theorem stores_record (instructions : List Instruction) :
    stores (instructions.map Instruction.record) = .ok (Instruction.stores instructions) := by
  rw [stores, writes_record, List.mapM_map]
  exact List.mapM_pure.trans (congrArg Except.ok (List.map_id _))

/-- The stores into the region are read from the records of instructions without a fault. -/
theorem regionStores_record (instructions : List Instruction) :
    regionStores (instructions.map Instruction.record) =
      .ok ((Instruction.stores instructions).filter fun store => inRegion store.1) := by
  have operands : (fun record : Record => do
        let address ← record.address
        if inRegion address then return some (address, ← record.value) else return none) ∘
          (fun store : Store => (Instruction.write store.1 store.2).record) =
      fun store => (.ok (if inRegion store.1 then some store else none) :
        Except OperandFault (Option Store)) := by
    funext store
    show (if inRegion store.1 then _ else _) = _
    split <;> rfl
  have found : (Instruction.stores instructions).mapM
      (fun store => (.ok (if inRegion store.1 then some store else none) :
        Except OperandFault (Option Store))) =
      .ok ((Instruction.stores instructions).map fun store =>
        if inRegion store.1 then some store else none) := List.mapM_pure
  rw [regionStores, writes_record, List.mapM_map, operands, found, ← List.filterMap_eq_filter]
  exact congrArg Except.ok List.filterMap_map

end Record

/-- The settings are read from the records of instructions without a fault. -/
theorem Assembly.recordSettings (instructions : List Instruction) :
    (instructions.map Instruction.record).mapM recordSetting? =
      .ok (instructions.map setting?) := by
  have settings : recordSetting? ∘ Instruction.record =
      fun instruction => (.ok (setting? instruction) : Except OperandFault (Option Setting)) := by
    funext instruction
    cases instruction <;> rfl
  rw [List.mapM_map, settings]
  exact List.mapM_pure

/-- Stores outside the region leave no trace in the image. -/
theorem Image.ofStores_filter (stores : List Store) :
    ofStores (stores.filter fun store => inRegion store.1) = ofStores stores := by
  rw [ofStores_eq_iff]
  intro address inside
  rw [Store.byteAt, Store.last?_filter_address, if_pos inside]
  rfl

/-- The records of instructions are delivered like the instructions. -/
theorem Target.emitRecords_record (target : Target) (labels : Labels)
    (instructions : List Instruction) :
    target.emitRecords labels (instructions.map Instruction.record) =
      .ok (target.emit labels instructions) := by
  cases target with
  | assembly =>
    have settings : (instructions.map Assembly.setting?).filterMap id =
        instructions.filterMap Assembly.setting? := List.filterMap_map
    have lines : render .assembly labels (instructions.filterMap Assembly.setting?)
        ((Instruction.stores instructions).filter fun store => inRegion store.1) =
          emit .assembly labels instructions := by
      simp only [emit, render, Assembly.lines, List.filter_filter, Bool.and_self]
    rw [emitRecords, Assembly.recordSettings, Record.regionStores_record, ← lines, ← settings]
    rfl
  | intelHex =>
    have image : render .intelHex labels []
        ((Instruction.stores instructions).filter fun store => inRegion store.1) =
          emit .intelHex labels instructions := by
      simp only [emit, render, Image.ofStores_filter]
    rw [emitRecords, Record.regionStores_record, ← image]
    rfl
  | _ =>
    rw [emitRecords, Record.stores_record]
    rfl

namespace Compilation

/-- What could stop a compilation before it has an outcome. -/
inductive Fault where
  /-- The number of a token is no number. -/
  | numeral (fault : NumeralFault)
  /-- A program holds something else than a statement. -/
  | entry (entry : ForeignEntry)
  /-- An instruction lacks an argument, or it is no number. -/
  | operand (fault : OperandFault)

/-- Deliver the instructions of a checked program with care. -/
def attemptDelivery (options : Options) (program : Program) (warnings : List Diagnostic)
    (log : List LogEntry) : Except Fault Compilation := do
  let instructions ←
    (Entry.instructions (program.body.map .statement) options.clearRests).mapError .entry
  let log := log ++ [lowerNote instructions]
  match Target.ofName? options.target.shown with
  | none =>
    return ⟨none, [⟨.unknownTarget options.target.shown, none, none, some .backend⟩], warnings,
      some program, some instructions, none, log⟩
  | some target =>
    let output ←
      (target.emitRecords options.labels (instructions.map Instruction.record)).mapError .operand
    return ⟨some output, [], warnings, some program, some instructions, some target,
      log ++ [emitNote target instructions warnings]⟩

/-- Check a program that was read without errors, and deliver it with care if it passes. -/
def attemptCheck (options : Options) (program : Program) (warnings : List Diagnostic)
    (log : List LogEntry) : Except Fault Compilation :=
  let errors := program.lintErrors.map (Diagnostic.inPhase .linter)
  let warnings := warnings ++ program.lintWarnings.map (Diagnostic.inPhase .linter)
  if errors.isEmpty then attemptDelivery options program warnings log
  else return ⟨none, errors, warnings, some program, none, none, log⟩

/-- Read a program with care from tokens whose numbers are documents, and go on if it was read
without errors. -/
def attemptParse (options : Options) (tokens : List (Token Json)) (log : List LogEntry) :
    Except Fault Compilation := do
  let parse ← (Parse.ofLooseTokens tokens).mapError .numeral
  let errors := parse.errors.map (Diagnostic.inPhase .parser)
  let warnings := parse.warnings.map (Diagnostic.inPhase .parser)
  let log := log ++ [parseNote parse.program]
  if errors.isEmpty then attemptCheck options parse.program warnings log
  else return ⟨none, errors, warnings, some parse.program, none, none, log⟩

/-- Compile a source text with care. -/
def attempt (options : Options) (source : String) : Except Fault Compilation :=
  let errors := (Token.scan source).2.map (Diagnostic.inPhase .lexer)
  let log := [scanNote (Token.scan source).1 errors]
  if errors.isEmpty then
    attemptParse options ((Token.scan source).1.map (Token.exchange .int)) log
  else return ⟨none, errors, [], none, none, none, log⟩

/-- A delivery is attempted with success, and is the delivery. -/
theorem attemptDelivery_eq_ok (options : Options) (program : Program)
    (warnings : List Diagnostic) (log : List LogEntry) :
    attemptDelivery options program warnings log = .ok (deliver options program warnings log) := by
  simp only [attemptDelivery, Entry.instructions_statements, Target.emitRecords_record, deliver]
  cases Target.ofName? options.target.shown <;> rfl

/-- A check is attempted with success, and is the check. -/
theorem attemptCheck_eq_ok (options : Options) (program : Program)
    (warnings : List Diagnostic) (log : List LogEntry) :
    attemptCheck options program warnings log = .ok (check options program warnings log) := by
  simp only [attemptCheck, attemptDelivery_eq_ok, check]
  split <;> rfl

/-- A reading of whole numbers is attempted with success, and is the reading. -/
theorem attemptParse_eq_ok (options : Options) (tokens : List (Token Int))
    (log : List LogEntry) :
    attemptParse options (tokens.map (Token.exchange .int)) log =
      .ok (parse options tokens log) := by
  simp only [attemptParse, Parse.ofLooseTokens_exchange, attemptCheck_eq_ok, parse]
  show (if _ then _ else _) = _
  split <;> rfl

/-- Nothing stops a compilation. -/
theorem attempt_eq_ok (options : Options) (source : String) :
    attempt options source = .ok (ofSource options source) := by
  simp only [attempt, attemptParse_eq_ok, ofSource]
  split <;> rfl

end Compilation

end StepSequencer
