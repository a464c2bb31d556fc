import StepSequencer.Compilation
import StepSequencer.Proofs.Program.Relocation
import StepSequencer.Proofs.Token.Reflow

/-!
# Compiling a text with other line breaks

Places enter a compilation with the tokens and leave it with its findings; nothing is decided by
them on the way. Each phase, given what differs in places only, does the same. So a text compiles to
the same instructions and the same output, with the same findings in the same words, however its
lines are broken.
-/
namespace StepSequencer

/-- What a finding says and who says it, without where. -/
def Diagnostic.wording (diagnostic : Diagnostic) : String × Option Phase :=
  (diagnostic.problem.message, diagnostic.phase)

/-- Moved findings of a phase have the same words. -/
theorem Diagnostic.wording_inPhase {findings others : List Diagnostic}
    (moved : findings.map (relocate .forget) = others.map (relocate .forget)) (phase : Phase) :
    (findings.map (inPhase phase)).map wording = (others.map (inPhase phase)).map wording := by
  have forgotten (findings : List Diagnostic) : (findings.map (inPhase phase)).map wording =
      (findings.map (relocate .forget)).map fun finding =>
        (finding.problem.message, some phase) := by
    rw [List.map_map, List.map_map]
    refine List.map_congr_left fun finding _ => ?_
    simp only [Function.comp_apply, inPhase, wording, relocate]
    split <;> rfl
  rw [forgotten, moved, ← forgotten]

/-- Findings that differ in places alone are none in the same cases. -/
theorem isEmpty_of_moved {findings others : List Diagnostic} {move : Relocation}
    (moved : findings.map (Diagnostic.relocate move) = others.map (Diagnostic.relocate move)) :
    findings.isEmpty = others.isEmpty := by
  rw [← List.isEmpty_map, moved, List.isEmpty_map]

namespace Compilation

/-- Compilations that nobody can tell apart who does not ask for places. -/
structure Alike (first second : Compilation) : Prop where
  success : first.success = second.success
  instructions : first.instructions = second.instructions
  output : first.output = second.output
  errors : first.errors.map Diagnostic.wording = second.errors.map Diagnostic.wording
  warnings : first.warnings.map Diagnostic.wording = second.warnings.map Diagnostic.wording

variable (options : Options) {program other : Program} {warnings others : List Diagnostic}

/-- Programs that differ in places alone are delivered alike. -/
theorem deliver_alike (moved : program.relocate .forget = other.relocate .forget)
    (worded : warnings.map Diagnostic.wording = others.map Diagnostic.wording)
    (log logged : List LogEntry) :
    Alike (deliver options program warnings log) (deliver options other others logged) := by
  have instructions : program.instructions options.clearRests =
      other.instructions options.clearRests := by
    rw [← Program.instructions_relocate .forget, moved, Program.instructions_relocate]
  unfold deliver
  rw [instructions]
  split
  · exact ⟨rfl, rfl, rfl, rfl, worded⟩
  · exact ⟨rfl, rfl, rfl, rfl, worded⟩

/-- Programs that differ in places alone are checked alike. -/
theorem check_alike (moved : program.relocate .forget = other.relocate .forget)
    (worded : warnings.map Diagnostic.wording = others.map Diagnostic.wording)
    (log logged : List LogEntry) :
    Alike (check options program warnings log) (check options other others logged) := by
  have errors : program.lintErrors.map (Diagnostic.relocate .forget) =
      other.lintErrors.map (Diagnostic.relocate .forget) := by
    rw [← Program.lintErrors_relocate, moved, Program.lintErrors_relocate]
  have doubts : program.lintWarnings.map (Diagnostic.relocate .forget) =
      other.lintWarnings.map (Diagnostic.relocate .forget) := by
    rw [← Program.lintWarnings_relocate, moved, Program.lintWarnings_relocate]
  have all : (warnings ++ program.lintWarnings.map (Diagnostic.inPhase .linter)).map
      Diagnostic.wording =
        (others ++ other.lintWarnings.map (Diagnostic.inPhase .linter)).map
          Diagnostic.wording := by
    rw [List.map_append, List.map_append, worded, Diagnostic.wording_inPhase doubts]
  unfold check
  dsimp only
  rw [List.isEmpty_map, List.isEmpty_map, isEmpty_of_moved errors]
  split
  · exact deliver_alike options moved all log logged
  · exact ⟨rfl, rfl, rfl, Diagnostic.wording_inPhase errors .linter, all⟩

/-- Tokens with the same lexemes are parsed alike. -/
theorem parse_alike {tokens others : List (Token Int)}
    (same : (Clause.content tokens).map Token.lexeme = (Clause.content others).map Token.lexeme)
    (log logged : List LogEntry) :
    Alike (parse options tokens log) (parse options others logged) := by
  obtain ⟨program, errors, warnings⟩ := Parse.mk.inj (Parse.ofTokens_forget same)
  have worded := Diagnostic.wording_inPhase warnings .parser
  unfold parse
  dsimp only
  rw [List.isEmpty_map, List.isEmpty_map, isEmpty_of_moved errors]
  split
  · exact check_alike options program worded _ _
  · exact ⟨rfl, rfl, rfl, Diagnostic.wording_inPhase errors .parser, worded⟩

/-- A source without comments and open strings compiles alike however its lines are broken: with
blanks for any of its line feeds, success, instructions, output and the words and phases of all
findings, in their order, stay the same. -/
theorem ofSource_reflow (options : Options) {source : String}
    (closed : (Token.scan source).2 = [])
    (uncommented : ∀ token ∈ (Token.scan source).1, token.lexeme.isComment = false)
    (chosen : Nat → Bool) :
    Alike (ofSource options (Text.reflow chosen source)) (ofSource options source) := by
  obtain ⟨same, stillClosed⟩ := Token.scan_reflow closed uncommented chosen
  simp only [ofSource, closed, stillClosed, List.map_nil, List.isEmpty_nil, if_true]
  exact parse_alike options same _ _

/-- A line feed that parts a zero from a hexadecimal mark, a minus from a digit and a name from its
colon may be a blank as well. -/
theorem ofSource_reflow_parted_words :
    let source := "@pattern a 'x'\n@scene m\nkick\n:\na\n@tempo 0\nx1F -\n5 @play m\nloop\n"
    (Token.scan source).2 = [] ∧
      (∀ token ∈ (Token.scan source).1, token.lexeme.isComment = false) ∧
      Alike (ofSource (.ofSettings .standard)
          "@pattern a 'x' @scene m kick : a @tempo 0 x1F - 5 @play m loop ")
        (ofSource (.ofSettings .standard) source) := by
  intro source
  have closed : (Token.scan source).2 = [] := by decide +kernel
  have all : ((Token.scan source).1.all fun token => !token.lexeme.isComment) = true := by
    decide +kernel
  have uncommented : ∀ token ∈ (Token.scan source).1, token.lexeme.isComment = false :=
    fun token member => Bool.not_eq_true' _ ▸ List.all_eq_true.mp all token member
  have line : Text.reflow (fun _ => true) source =
      "@pattern a 'x' @scene m kick : a @tempo 0 x1F - 5 @play m loop " := by decide +kernel
  exact ⟨closed, uncommented,
    line ▸ ofSource_reflow (.ofSettings .standard) closed uncommented fun _ => true⟩

end Compilation
end StepSequencer
