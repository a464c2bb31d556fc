import StepSequencer.Proofs.Clause.Comments
import StepSequencer.Proofs.Host.Routes
import StepSequencer.Proofs.Program.Voices
import StepSequencer.Proofs.Token.Comments

/-!
# Compiling without the comments

A comment stores nothing, but it ends the clause before it. Sources in which no comment parts an
operand or a colon from its clause compile without their comments, too. The only change is that a
scene regains the items that comments cut off from it. Where such a scene is defined, this makes no
difference: the items are stored at the same point as before. Where it is played, they are stored
once more, and so the files are the same exactly when this changes no byte.
-/
namespace StepSequencer

namespace Clause

variable {β : Type}

/-- What statements yield if comments yield nothing and a scene yields what its assignments yield
on their own, one after the other. -/
structure Additive (yields : Statement → List β) : Prop where
  comment : ∀ line text, yields (.comment line text) = []
  scene : ∀ (name : String) (assignments : List Assignment) (line other : Int)
    (assignment : Assignment),
    yields (.scene ⟨name, assignments ++ [assignment], line⟩) =
      yields (.scene ⟨name, assignments, line⟩) ++ yields (.assign other assignment)

/-- What clauses yield in order. -/
def yielded (yields : Statement → List β) (clauses : List (Clause Int)) : List β :=
  (clauses.filterMap statement?).flatMap yields

/-- Clauses in a row yield what they yield one after the other. -/
theorem yielded_append (yields : Statement → List β) (first second : List (Clause Int)) :
    yielded yields (first ++ second) = yielded yields first ++ yielded yields second := by
  rw [yielded, List.filterMap_append, List.flatMap_append]
  rfl

/-- A clause yields what its statement does, before the clauses behind it. -/
theorem yielded_cons (yields : Statement → List β) (clause : Clause Int)
    (clauses : List (Clause Int)) :
    yielded yields (clause :: clauses) =
      (clause.statement?.toList.flatMap yields) ++ yielded yields clauses := by
  rw [yielded, List.filterMap_cons]
  cases clause.statement? with
  | none => rfl
  | some statement => simp [yielded]

/-- The front that regrouping splits off holds nothing but items. -/
theorem regroup_items (clauses : List (Clause Int)) :
    ∀ clause ∈ (regroup clauses).1, clause.item?.isSome = true := by
  induction clauses with
  | nil => exact fun _ member => absurd member List.not_mem_nil
  | cons clause clauses ih =>
    cases clause with
    | comment line text => exact ih
    | assign line voice played => exact List.forall_mem_cons.mpr ⟨rfl, ih⟩
    | bare name place => exact List.forall_mem_cons.mpr ⟨rfl, ih⟩
    | _ => exact fun _ member => absurd member List.not_mem_nil

variable {yields : Statement → List β}

/-- A scene yields for its regained items what they yielded on their own. -/
theorem Additive.regained (additive : Additive yields) (name : String)
    (assignments : List Assignment) (line : Int) {items : List (Clause Int)}
    (all : ∀ clause ∈ items, clause.item?.isSome = true) :
    yields (.scene ⟨name,
        assignments ++ (items.filterMap item?).filterMap Member.assignment?, line⟩) =
      yields (.scene ⟨name, assignments, line⟩) ++ yielded yields items := by
  induction items generalizing assignments with
  | nil => simp [yielded]
  | cons clause items ih =>
    obtain ⟨here, later⟩ := List.forall_mem_cons.mp all
    cases clause with
    | assign other voice played =>
      have onto := ih (assignments ++ [⟨voice, played.get?⟩]) later
      rw [additive.scene _ _ _ other, List.append_assoc, List.append_assoc] at onto
      exact onto
    | bare other place => exact ih assignments later
    | _ => exact absurd here Bool.false_ne_true

/-- Rejoined clauses yield the same. -/
theorem Additive.rejoined (additive : Additive yields) (clauses : List (Clause Int)) :
    yielded yields (rejoined clauses) = yielded yields clauses := by
  induction clauses with
  | nil => rfl
  | cons clause clauses ih =>
    rw [yielded_cons, ← ih]
    cases clause with
    | comment line text =>
      have none : (Clause.comment line text).statement?.toList.flatMap yields = [] := by
        simp [statement?, additive.comment]
      rw [none]
      rfl
    | scene line name members =>
      have regained := additive.regained (name.getD "a") (members.filterMap Member.assignment?) line
        (regroup_items clauses)
      have whole : yielded yields
          [.scene line name (members ++ (regroup clauses).1.filterMap item?)] =
            yields (.scene ⟨name.getD "a", members.filterMap Member.assignment?, line⟩) ++
              yielded yields (regroup clauses).1 := by
        rw [← regained, ← List.filterMap_append]
        exact List.append_nil _
      calc yielded yields ([.scene line name (members ++ (regroup clauses).1.filterMap item?)] ++
            (regroup clauses).2)
          = yields (.scene ⟨name.getD "a", members.filterMap Member.assignment?, line⟩) ++
              (yielded yields (regroup clauses).1 ++ yielded yields (regroup clauses).2) := by
            rw [yielded_append, whole, List.append_assoc]
        _ = _ := by
            rw [← yielded_append]
            exact congrArg (· ++ _) (List.append_nil _).symm
    | _ => exact yielded_cons yields _ _

end Clause

namespace Program

/-- The stores of a program if playing a scene by its name means what an index says. -/
def storesPlaying (program : Program) (scenes : Index Scene) (clearRests : Bool) : List Store :=
  program.body.flatMap fun statement =>
    Instruction.stores (statementInstructions program.patterns scenes clearRests statement)

/-- A program plays its own scenes. -/
theorem stores_eq_storesPlaying (program : Program) (clearRests : Bool) :
    Instruction.stores (program.instructions clearRests) =
      program.storesPlaying program.scenes clearRests :=
  Instruction.stores_flatMap ..

/-- Only what the scenes that are played by name are matters. -/
theorem storesPlaying_congr {program : Program} {scenes others : Index Scene}
    (same : ∀ line name looped, .play line (some name) looped ∈ program.body →
      scenes.get? name = others.get? name) (clearRests : Bool) :
    program.storesPlaying scenes clearRests = program.storesPlaying others clearRests := by
  refine List.flatMap_congr fun statement member => ?_
  cases statement with
  | play line name looped =>
    cases name with
    | none => rfl
    | some name =>
      have known : (given? (some name)).bind scenes.get? =
          (given? (some name)).bind others.get? := by
        by_cases given : (name != "") = true
        · simp only [given?, Option.filter_some, given, if_true, Option.bind_some]
          exact same line name looped member
        · simp only [given?, Option.filter_some, given, if_false, Bool.false_eq_true,
            Option.bind_none]
      simp only [statementInstructions, known]
  | _ => rfl

/-- A scene stores what its assignments store on their own. -/
theorem additive_stores (patterns : Index Pattern) (scenes : Index Scene) (clearRests : Bool) :
    Clause.Additive fun statement =>
      Instruction.stores (statementInstructions patterns scenes clearRests statement) where
  comment _ _ := rfl
  scene name assignments line other assignment := by
    simp only [statementInstructions, stores_sceneInstructions, List.flatMap_append]
    exact congrArg _ (List.append_nil _)

/-- Neither a scene nor its assignments define patterns. -/
theorem additive_patterns : Clause.Additive fun statement => statement.pattern?.toList where
  comment _ _ := rfl
  scene _ _ _ _ _ := rfl

/-- The assignments of a scene have the problems that they have on their own. -/
theorem additive_problems (defined : List String) :
    Clause.Additive fun statement => (statement.errors defined).map Diagnostic.problem where
  comment _ _ := rfl
  scene name assignments line other assignment := by
    have anywhere : (assignment.errors defined line).map Diagnostic.problem =
        (assignment.errors defined other).map Diagnostic.problem := by
      unfold Assignment.errors
      split
      · rfl
      · split <;> rfl
    simp only [Statement.errors, List.flatMap_append, List.map_append, ← anywhere]
    exact congrArg (_ ++ List.map _ ·) (List.append_nil _)

end Program

namespace Compilation

open Program

/-- The program that a source is once scenes regain the items that comments cut off from them. -/
def wholeProgram (source : String) : Program :=
  ⟨(Clause.rejoined (Clause.ofTokens (Token.scan source).1)).filterMap Clause.statement?⟩

/-- A source in which no comment parts a `@play` from a name or `loop`, or a name without a colon
from a colon. -/
def Unparted (source : String) : Prop :=
  Clause.unparted (Clause.endPlace (Token.scan source).1) (Clause.content (Token.scan source).1) =
    true

/-- Whether a comment parts a phrase can be computed. -/
instance (source : String) : Decidable (Unparted source) :=
  inferInstanceAs (Decidable (_ = true))

variable {source : String}

/-- What an additive view of statements shows of the two programs is the same. -/
theorem flatMap_wholeProgram {β : Type} {yields : Statement → List β}
    (additive : Clause.Additive yields) (source : String) :
    (wholeProgram source).body.flatMap yields = (programOf source).body.flatMap yields :=
  additive.rejoined (Clause.ofTokens (Token.scan source).1)

/-- Scenes that regain their items do not change the patterns. -/
theorem patterns_wholeProgram (source : String) :
    (wholeProgram source).patterns = (programOf source).patterns := by
  have same := flatMap_wholeProgram additive_patterns source
  rw [← List.filterMap_eq_flatMap_toList, ← List.filterMap_eq_flatMap_toList] at same
  rw [patterns, same]
  rfl

/-- Scenes that regain their items change no store but by being played. -/
theorem storesPlaying_wholeProgram (source : String) (scenes : Index Scene) (clearRests : Bool) :
    (wholeProgram source).storesPlaying scenes clearRests =
      (programOf source).storesPlaying scenes clearRests := by
  rw [storesPlaying, patterns_wholeProgram]
  exact flatMap_wholeProgram (additive_stores _ scenes clearRests) source

/-- Scenes that regain their items have no errors if the items had none. -/
theorem lintErrors_wholeProgram (checked : (programOf source).lintErrors = []) :
    (wholeProgram source).lintErrors = [] := by
  have same := flatMap_wholeProgram (additive_problems (programOf source).patterns.names) source
  rw [← List.map_flatMap, ← List.map_flatMap] at same
  have none : ((programOf source).lintErrors).map Diagnostic.problem = [] := by
    rw [checked]
    rfl
  rw [lintErrors, patterns_wholeProgram]
  exact List.map_eq_nil_iff.mp (same.trans none)

/-- A clean source without its comments is read as its whole program. -/
theorem reading_uncomment (clean : Clean source) (unparted : Unparted source) :
    (reading (Token.uncomment source)).errors = [] ∧
      programOf (Token.uncomment source) = wholeProgram source := by
  have words : Clause.content (Token.scan (Token.uncomment source)).1 =
      Clause.uncommented (Clause.content (Token.scan source).1) :=
    (Token.scan_uncomment source).1
  have proper : ∀ token ∈ Clause.content (Token.scan source).1, Grammar.Proper token := by
    rw [Grammar.content_scan]
    exact Grammar.proper_words source
  obtain ⟨errors, body⟩ := Grammar.group_uncommented _
    (Clause.endPlace (Token.scan (Token.uncomment source)).1) proper clean.parsed unparted
  rw [← words] at errors body
  exact ⟨errors, congrArg Program.mk body⟩

/-- A clean source stays clean without its comments. -/
theorem clean_uncomment (clean : Clean source) (unparted : Unparted source) :
    Clean (Token.uncomment source) := by
  obtain ⟨errors, program⟩ := reading_uncomment clean unparted
  refine ⟨(Token.scan_uncomment source).2.trans clean.scanned, errors, ?_⟩
  rw [program]
  exact lintErrors_wholeProgram clean.checked

/-- A clean source is delivered as Intel HEX without an error. -/
theorem errors_inIntelHex (clean : Clean source) (options : Options) :
    (ofSource (inIntelHex options) source).errors = [] := by
  have known : Target.ofName? (inIntelHex options).target.shown = some .intelHex := by
    show Target.ofName? Target.intelHex.key = some .intelHex
    decide
  exact errors_of_clean clean known

/-- A source that compiles without errors, and in which no comment parts what belongs together, does
so without its comments. The two files are the same exactly when storing again, wherever a scene is
played, the items that comments cut off from it leaves every byte as it is. So they are the same if
no scene is played from which a comment cuts off an assignment. -/
theorem hex_uncomment (options : Options)
    (compiled : (ofSource (inIntelHex options) source).errors = []) (unparted : Unparted source) :
    ∃ file uncommented,
      (ofSource (inIntelHex options) source).output = some file ∧
      (ofSource (inIntelHex options) (Token.uncomment source)).errors = [] ∧
      (ofSource (inIntelHex options) (Token.uncomment source)).output = some uncommented ∧
      (uncommented = file ↔ ∀ address, inRegion address = true →
        Store.byteAt ((programOf source).storesPlaying (wholeProgram source).scenes
            options.clearRests) address =
          Store.byteAt ((programOf source).storesPlaying (programOf source).scenes
            options.clearRests) address) ∧
      ((∀ line name looped, .play line (some name) looped ∈ (programOf source).body →
          (wholeProgram source).scenes.get? name = (programOf source).scenes.get? name) →
        uncommented = file) := by
  have clean := clean_of_errors compiled
  have later := clean_uncomment clean unparted
  have output := output_inIntelHex clean options
  have outputLater := output_inIntelHex later options
  rw [stores_eq_storesPlaying] at output outputLater
  rw [(reading_uncomment clean unparted).2, storesPlaying_wholeProgram] at outputLater
  refine ⟨_, _, output, errors_inIntelHex later options, outputLater,
    IntelHex.regionFile_eq_iff _ _, fun same => ?_⟩
  rw [storesPlaying_congr same]

/-- A comment cuts an item off a scene that is played, but playing it again changes no byte. -/
theorem hex_uncomment_cut_scene :
    let source := "@pattern a \"x\"\n@scene m\nkick: a # c\nsnare: a\n@play m\n"
    (ofSource (inIntelHex (.ofSettings .standard)) source).errors = [] ∧ Unparted source ∧
      ∃ file, (ofSource (inIntelHex (.ofSettings .standard)) source).output = some file ∧
        (ofSource (inIntelHex (.ofSettings .standard)) (Token.uncomment source)).output =
          some file := by
  intro source
  have clean : Clean source := by decide +kernel
  have unparted : Unparted source := by decide +kernel
  have compiled := errors_inIntelHex clean (.ofSettings .standard)
  obtain ⟨file, uncommented, output, -, outputLater, same, -⟩ :=
    hex_uncomment (.ofSettings .standard) compiled unparted
  have whole : (programOf source).storesPlaying (wholeProgram source).scenes false =
      [(0x1000, 1), (0x1020, 1), (0x1000, 1), (0x1020, 1), (0x1500, 1)] := by decide +kernel
  have played : (programOf source).storesPlaying (programOf source).scenes false =
      [(0x1000, 1), (0x1020, 1), (0x1000, 1), (0x1500, 1)] := by decide +kernel
  have again : uncommented = file := by
    refine same.mpr fun address _ => ?_
    rw [show (Options.ofSettings .standard).clearRests = false from rfl, whole, played]
    by_cases cut : 0x1020 = address
    · subst cut
      rfl
    · simp [Store.byteAt, Store.last?, cut]
  rw [again] at outputLater
  exact ⟨compiled, unparted, file, output, outputLater⟩

/-- Whether a source that compiles does so without its comments, to the same file. -/
def KeepsHex (source : String) : Prop :=
  (ofSource (inIntelHex (.ofSettings .standard)) source).errors = [] →
    (ofSource (inIntelHex (.ofSettings .standard)) (Token.uncomment source)).errors = [] ∧
      (ofSource (inIntelHex (.ofSettings .standard)) (Token.uncomment source)).output =
        (ofSource (inIntelHex (.ofSettings .standard)) source).output

/-- A byte of the region that comments change is changed in the file. -/
theorem not_keepsHex_of_byteAt (clean : Clean source) (address : Int)
    (inside : inRegion address = true)
    (differs : Store.byteAt (Instruction.stores
        ((programOf (Token.uncomment source)).instructions false)) address ≠
      Store.byteAt (Instruction.stores ((programOf source).instructions false)) address) :
    ¬KeepsHex source := by
  intro keeps
  obtain ⟨errors, output⟩ := keeps (errors_inIntelHex clean _)
  rw [output_inIntelHex clean, output_inIntelHex (clean_of_errors errors)] at output
  exact differs ((IntelHex.regionFile_eq_iff _ _).mp (Option.some.inj output) address inside)

/-- Comments that matter: one parts a `@play` from `loop`, one parts a `@play` from an assignment
whose voice it would take for a scene, one cuts an item off a scene that is played when the item has
been stored over, and one parts a name from a colon behind which a pattern is missing. -/
theorem hex_ne_uncomment :
    ¬KeepsHex "@play a # c\nloop\n" ∧
      ¬KeepsHex "@pattern a \"x\"\n@play # c\nkick: a\n" ∧
      ¬KeepsHex "@pattern a \"x\"\n@pattern b \"X\"\n@scene m\nkick: a # c\nkick: b\n@play m\n" ∧
      ¬KeepsHex "kick # c\n:\n" := by
  refine ⟨?_, ?_, ?_, fun keeps => ?_⟩
  · have clean : Clean "@play a # c\nloop\n" := by decide +kernel
    exact not_keepsHex_of_byteAt clean 0x1500 (by decide) (by decide +kernel)
  · have clean : Clean "@pattern a \"x\"\n@play # c\nkick: a\n" := by decide +kernel
    exact not_keepsHex_of_byteAt clean 0x1000 (by decide) (by decide +kernel)
  · have clean : Clean
        "@pattern a \"x\"\n@pattern b \"X\"\n@scene m\nkick: a # c\nkick: b\n@play m\n" := by
      decide +kernel
    exact not_keepsHex_of_byteAt clean 0x1000 (by decide) (by decide +kernel)
  · have clean : Clean "kick # c\n:\n" := by decide +kernel
    have later := (clean_of_errors (keeps (errors_inIntelHex clean _)).1).parsed
    have missing : (reading (Token.uncomment "kick # c\n:\n")).errors ≠ [] := by decide +kernel
    exact missing later

end Compilation

end StepSequencer
