import StepSequencer.Proofs.Compilation.Places
import StepSequencer.Report.Schema

/-!
# Reports keep to their schema

A report can only go wrong in its findings: one needs a message, a phase, and a line and a column
that are not negative. What a compilation finds before the delivery points into its source, where
lines and columns are counted from one, and nothing of it is in somebody's own words.
-/
namespace StepSequencer

/-- What starts with a text that says something says something. -/
theorem Text.append_ne_empty {head : String} (worded : head ≠ "") (tail : String) :
    head ++ tail ≠ "" := by
  intro empty
  have lengths := congrArg String.length empty
  rw [String.length_append] at lengths
  exact worded (String.length_eq_zero_iff.mp (Nat.eq_zero_of_add_eq_zero_right lengths))

/-- Only a report in somebody's own words can say nothing. -/
theorem Problem.message_ne_empty {problem : Problem} (known : problem.isStated = false) :
    problem.message ≠ "" := by
  cases problem with
  | stated text => exact nomatch known
  | unterminatedString =>
    show "Unterminated string" ≠ ""
    simp
  | _ =>
    change _ ++ _ ≠ ""
    repeat apply Text.append_ne_empty
    simp

namespace Diagnostic

/-- A finding as it may stand in a report. -/
structure Presentable (diagnostic : Diagnostic) : Prop where
  line : ∀ line ∈ diagnostic.line, 0 ≤ line
  col : ∀ col ∈ diagnostic.col, 0 ≤ col
  worded : diagnostic.problem.message ≠ ""
  phased : diagnostic.phase.isSome = true

/-- A finding that is located is in known words. -/
theorem Located.known {diagnostic : Diagnostic} (located : diagnostic.Located) :
    diagnostic.problem.isStated = false := by
  cases located <;> assumption

end Diagnostic

open Diagnostic (Presentable)

namespace Compilation

/-- All that a compilation finds can be reported. -/
theorem ofSource_presentable (source : String) (options : Options) :
    (∀ finding ∈ (ofSource options source).errors, Presentable finding) ∧
      ∀ finding ∈ (ofSource options source).warnings, Presentable finding := by
  rw [← List.forall_mem_append]
  intro finding member
  cases ofSource_found source options finding member with
  | @early bare phase found =>
    obtain ⟨line, row, given, first, _, _, inside⟩ := findings_pointInto source phase bare found
    refine ⟨fun other same => ?_, fun col member => ?_, ?_, rfl⟩
    · obtain rfl := Option.some.inj (given.symm.trans same)
      omega
    · have left := (inside col member).1
      omega
    · exact Problem.message_ne_empty (findings_located source bare found).known
  | unknownTarget =>
    exact ⟨fun _ none => (nomatch none), fun _ none => (nomatch none),
      Problem.message_ne_empty rfl, rfl⟩

end Compilation

namespace Report

/-- A line or a column is a place just if it is not negative. -/
theorem isPlace_orNull (value : Option Int) :
    isPlace (orNull .int value) = true ↔ ∀ number ∈ value, 0 ≤ number := by
  cases value with
  | none => simp [orNull, isPlace]
  | some number => simp [orNull, isPlace, whole?]

/-- A text is one of a list just if it is a member. -/
theorem isOneOf_str {texts : List String} {text : String} :
    isOneOf texts (.str text) = true ↔ text ∈ texts := List.contains_iff_mem

/-- The schema knows the name of every phase. -/
theorem phase_mem (phase : Phase) : phase.name ∈ phases := by cases phase <;> decide

/-- The schema knows the name of every operation. -/
theorem opcode_mem (code : Opcode) : code.name ∈ operations := by cases code <;> decide

/-- The schema knows the key of every target. -/
theorem target_mem (target : Target) : target.key ∈ targets := by cases target <;> decide

/-- The document of a finding keeps to its schema just if the finding is presentable. -/
theorem isDiagnostic_ofDiagnostic (diagnostic : Diagnostic) :
    isDiagnostic (ofDiagnostic diagnostic) = true ↔ Presentable diagnostic := by
  have phased : isOneOf phases (orNull (fun phase => .str phase.name) diagnostic.phase) = true ↔
      diagnostic.phase.isSome = true := by
    cases diagnostic.phase with
    | none => simp [orNull, isOneOf]
    | some phase => exact iff_of_true (isOneOf_str.mpr (phase_mem phase)) rfl
  have fields : isDiagnostic (ofDiagnostic diagnostic) = true ↔
      (∀ line ∈ diagnostic.line, 0 ≤ line) ∧ (∀ col ∈ diagnostic.col, 0 ≤ col) ∧
        diagnostic.problem.message ≠ "" ∧ diagnostic.phase.isSome = true := by
    simp [isDiagnostic, ofDiagnostic, isRecordOf, List.lookup_cons, isPlace_orNull, phased]
  rw [fields]
  constructor
  · rintro ⟨line, col, worded, phased⟩
    exact ⟨line, col, worded, phased⟩
  · intro presentable
    exact ⟨presentable.line, presentable.col, presentable.worded, presentable.phased⟩

/-- Every instruction has a document that keeps to its schema. -/
theorem isInstruction_record (instruction : Instruction) :
    isInstruction (ofRecord instruction.record) = true := by
  have args : isListOf (fun document => isText document || (whole? document).isSome)
      (.arr instruction.record.args) = true := by
    cases instruction <;> rfl
  have named := isOneOf_str.mpr (opcode_mem instruction.record.code)
  simp [isInstruction, ofRecord, isRecordOf, List.lookup_cons, named, args]

/-- A list of documents passes a check just if each of them does. -/
theorem isListOf_map {α : Type} (check : Json → Bool) (write : α → Json) (items : List α) :
    isListOf check (.arr (items.map write)) = true ↔ ∀ item ∈ items, check (write item) = true := by
  simp [isListOf]

/-- The report of a compilation keeps to its schema just if its findings are presentable. -/
theorem isReport_ofCompilation (compilation : Compilation) :
    isReport (ofCompilation compilation) = true ↔
      (∀ error ∈ compilation.errors, Presentable error) ∧
        ∀ warning ∈ compilation.warnings, Presentable warning := by
  have target : isNullOr (isOneOf targets)
      (orNull (fun target => .str target.key) compilation.target) = true := by
    cases compilation.target with
    | none => rfl
    | some target => exact isOneOf_str.mpr (target_mem target)
  have output : isNullOr isText (orNull .str compilation.output) = true := by
    cases compilation.output <;> rfl
  have instructions : isNullOr (isListOf isInstruction)
      (orNull (fun instructions =>
        .arr (instructions.map fun instruction => ofRecord instruction.record))
        compilation.instructions) = true := by
    cases compilation.instructions with
    | none => rfl
    | some instructions =>
      exact (isListOf_map _ _ _).mpr fun instruction _ => isInstruction_record instruction
  have names (names : List String) : isListOf isText (ofNames names) = true :=
    (isListOf_map _ _ _).mpr fun _ _ => rfl
  simp [isReport, ofCompilation, isRecordOf, List.lookup_cons, target, output, instructions, names,
    isListOf_map, isDiagnostic_ofDiagnostic]

end Report

end StepSequencer
