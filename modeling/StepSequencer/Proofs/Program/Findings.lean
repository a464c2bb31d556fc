import StepSequencer.Clause.Meaning
import StepSequencer.Program.Lint

/-!
# Where findings stand

What is found in a program text is found at a position or in a line. The errors of a clause are at
the positions where its operands were missed; everything else is in the line in which the clause
starts, and a statement starts in the line of its clause. None of the findings is in somebody's own
words.
-/
namespace StepSequencer

/-- Whether a problem is in the words of whoever reports it. -/
def Problem.isStated : Problem → Bool
  | stated _ => true
  | _ => false

namespace Diagnostic

/-- A finding in a line, not in somebody's own words. -/
def InLine (line : Int) (diagnostic : Diagnostic) : Prop :=
  ∃ problem : Problem, problem.isStated = false ∧ diagnostic = .atLine problem line

/-- A finding in a program text: it has a line, and a message that is not in somebody's own
words. -/
inductive Located : Diagnostic → Prop where
  | atPosition {problem : Problem} (known : problem.isStated = false) (place : Position) :
      Located (.atPosition problem place)
  | atLine {problem : Problem} (known : problem.isStated = false) (line : Int) :
      Located (.atLine problem line)

/-- A finding in a line has a line. -/
theorem InLine.located {line : Int} {diagnostic : Diagnostic} (found : diagnostic.InLine line) :
    diagnostic.Located := by
  obtain ⟨problem, known, rfl⟩ := found
  exact .atLine known line

/-- A check that is passed or finds one thing in a line. -/
theorem inLine_of_check {passed : Prop} [Decidable passed] {problem : Problem}
    (known : problem.isStated = false) (line : Int) :
    ∀ finding ∈ (if passed then [] else [Diagnostic.atLine problem line]), InLine line finding := by
  intro finding member
  split at member
  · contradiction
  · exact ⟨problem, known, List.mem_singleton.mp member⟩

end Diagnostic

open Diagnostic (InLine Located inLine_of_check)

/-- The error of an operand has a line. -/
theorem Slot.errors_located {α : Type} (slot : Slot α) : ∀ error ∈ slot.errors, Located error := by
  cases slot with
  | found value => simp [Slot.errors]
  | missed operand place =>
    intro error member
    rw [List.mem_singleton.mp member]
    exact .atPosition rfl place

namespace Clause

/-- The errors of a clause have lines. -/
theorem errors_located (clause : Clause Int) : ∀ error ∈ clause.errors, Located error := by
  have both {first second : List Diagnostic} (one : ∀ error ∈ first, Located error)
      (two : ∀ error ∈ second, Located error) : ∀ error ∈ first ++ second, Located error :=
    List.forall_mem_append.mpr ⟨one, two⟩
  cases clause with
  | title line text => exact text.errors_located
  | tempo line value => exact value.errors_located
  | swing line value => exact value.errors_located
  | pattern line name text => exact both name.errors_located text.errors_located
  | scene line name members =>
    refine both name.errors_located ?_
    intro error found
    obtain ⟨member, _, found⟩ := List.mem_flatMap.mp found
    cases member with
    | assign voice pattern => exact pattern.errors_located error found
    | bare name => contradiction
  | param line target value => exact both target.errors_located value.errors_located
  | poke line address value => exact both address.errors_located value.errors_located
  | loop line count => exact count.errors_located
  | wait line steps => exact steps.errors_located
  | assign line voice name => exact name.errors_located
  | unknown name place =>
    intro error member
    rw [List.mem_singleton.mp member]
    exact .atPosition rfl place
  | _ => exact List.forall_mem_nil _

/-- The line in which a clause starts. -/
def line {ν : Type} : Clause ν → Int
  | comment line _ | title line _ | tempo line _ | swing line _ | pattern line _ _ => line
  | scene line _ _ | play line _ _ | stop line | param line _ _ | poke line _ _ => line
  | loop line _ | wait line _ | assign line _ _ => line
  | unknown _ place | bare _ place | stray place => place.line

/-- The warnings of a clause are in its line. -/
theorem warnings_inLine (clause : Clause Int) :
    ∀ warning ∈ clause.warnings, warning.InLine clause.line := by
  cases clause with
  | tempo line value => exact inLine_of_check rfl line
  | swing line value => exact inLine_of_check rfl line
  | pattern line name text => exact inLine_of_check rfl line
  | _ => exact List.forall_mem_nil _

end Clause

namespace Statement

/-- The line in which a statement starts. -/
def line : Statement → Int
  | comment line _ | title line _ | tempo line _ | swing line _ | assign line _ => line
  | play line _ _ | stop line | param line _ _ _ | poke line _ _ | loop line _ => line
  | wait line _ => line
  | pattern definition => definition.line
  | scene definition => definition.line

/-- A statement starts where its clause does. -/
theorem line_of_clause {clause : Clause Int} {statement : Statement}
    (stands : clause.statement? = some statement) : statement.line = clause.line := by
  cases clause <;> first | contradiction | (cases Option.some.inj stands; rfl)

end Statement

/-- The errors of an assignment are in the line that it is checked for. -/
theorem Assignment.errors_inLine (defined : List String) (line : Int) (assignment : Assignment) :
    ∀ error ∈ assignment.errors defined line, error.InLine line := by
  unfold Assignment.errors
  split
  · exact List.forall_mem_nil _
  · exact inLine_of_check rfl line

namespace Statement

/-- The errors of a statement are in its line. -/
theorem errors_inLine (defined : List String) (statement : Statement) :
    ∀ error ∈ statement.errors defined, error.InLine statement.line := by
  cases statement with
  | scene definition =>
    intro error found
    obtain ⟨assignment, _, found⟩ := List.mem_flatMap.mp found
    exact assignment.errors_inLine defined definition.line error found
  | assign line assignment => exact assignment.errors_inLine defined line
  | tempo line bpm => exact inLine_of_check rfl line
  | poke line address value => exact inLine_of_check rfl line
  | _ => exact List.forall_mem_nil _

/-- The warnings of a statement are in its line. -/
theorem warnings_inLine (statement : Statement) :
    ∀ warning ∈ statement.warnings, warning.InLine statement.line := by
  cases statement with
  | assign line assignment => exact inLine_of_check rfl line
  | param line voice parameter value => exact inLine_of_check rfl line
  | pattern definition => exact inLine_of_check rfl definition.line
  | poke line address value => exact inLine_of_check rfl line
  | _ => exact List.forall_mem_nil _

end Statement

end StepSequencer
