import StepSequencer.Proofs.Compilation.Phases
import StepSequencer.Proofs.Host.Gates
import StepSequencer.Proofs.Program.Expansion

/-!
# References of a clean source

The reader leaves an assignment without a pattern only with an error, the scanner gives no empty
names, and the checks ask for a definition of every name. So in a clean source all assignments name
patterns that are defined, and a pattern that was read has all its steps. The scenes of the index
are scenes of the program: what is expanded where a scene is played was checked where the scene is
defined. Nothing is passed over when the instructions of a clean source are made.
-/
namespace StepSequencer

/-! ### What the reader leaves out -/

/-- An operand without an error was found. -/
theorem Slot.get?_ne_none {α : Type} {slot : Slot α} (fine : slot.errors = []) :
    slot.get? ≠ none := by
  cases slot with
  | found value => exact Option.some_ne_none value
  | missed operand place => contradiction

/-- An assignment without an error names a pattern. -/
theorem Member.pattern_ne_none {item : Member} {assignment : Assignment}
    (read : item.assignment? = some assignment) (fine : item.errors = []) :
    assignment.pattern ≠ none := by
  cases item with
  | bare name => contradiction
  | assign voice pattern =>
    obtain rfl := Option.some.inj read
    exact Slot.get?_ne_none fine

/-- A clause without an error leaves no pattern out. -/
theorem Clause.pattern_ne_none {clause : Clause Int} {statement : Statement}
    (read : clause.statement? = some statement) (fine : clause.errors = []) :
    ∀ assignment ∈ statement.assignments, assignment.pattern ≠ none := by
  cases clause with
  | scene line name members =>
    obtain rfl := Option.some.inj read
    have items := (List.append_eq_nil_iff.mp fine).2
    intro assignment member
    obtain ⟨item, inside, found⟩ := List.mem_filterMap.mp member
    exact Member.pattern_ne_none found (List.flatMap_eq_nil_iff.mp items item inside)
  | assign line voice name =>
    obtain rfl := Option.some.inj read
    exact List.forall_mem_singleton.mpr (Slot.get?_ne_none fine)
  | unknown | bare | stray => contradiction
  | _ =>
    obtain rfl := Option.some.inj read
    exact List.forall_mem_nil _

/-- In a program that is parsed without errors every assignment names a pattern. -/
theorem Parse.pattern_ne_none {tokens : List (Token Int)} (fine : (ofTokens tokens).errors = []) :
    ∀ statement ∈ (ofTokens tokens).program.body, ∀ assignment ∈ statement.assignments,
      assignment.pattern ≠ none := by
  intro statement member
  obtain ⟨clause, inside, read⟩ := List.mem_filterMap.mp member
  exact Clause.pattern_ne_none read (List.flatMap_eq_nil_iff.mp fine clause inside)

/-- In a statement without empty names no assignment names a pattern by an empty one. -/
theorem Statement.Named.pattern_ne_empty {statement : Statement} (named : statement.Named) :
    ∀ assignment ∈ statement.assignments, assignment.pattern ≠ some "" := by
  cases statement with
  | scene definition => exact named
  | assign line assignment => exact List.forall_mem_singleton.mpr named
  | _ => exact List.forall_mem_nil _

/-! ### What the checks ask for -/

/-- A pattern that an assignment names without an error is defined. -/
theorem Assignment.defined_of_errors {defined : List String} {line : Int}
    {assignment : Assignment} {name : String} (fine : assignment.errors defined line = [])
    (asks : assignment.pattern = some name) (named : name ≠ "") : name ∈ defined := by
  rw [errors, asks] at fine
  by_cases known : name ∈ defined
  · exact known
  · have unknown : ¬(name = "" ∨ name ∈ defined) := fun either => either.elim named known
    simp only [if_neg unknown] at fine
    contradiction

/-- A statement without an error asks for patterns that are defined. -/
theorem Statement.defined_of_errors {defined : List String} {statement : Statement}
    (fine : statement.errors defined = []) {assignment : Assignment}
    (member : assignment ∈ statement.assignments) {name : String}
    (asks : assignment.pattern = some name) (named : name ≠ "") : name ∈ defined := by
  cases statement with
  | scene definition =>
    have own := List.flatMap_eq_nil_iff.mp fine assignment member
    exact Assignment.defined_of_errors own asks named
  | assign line single =>
    obtain rfl := List.mem_singleton.mp member
    exact Assignment.defined_of_errors fine asks named
  | _ => exact absurd member List.not_mem_nil

/-! ### Assignments with a pattern -/

/-- An assignment that names a known pattern with exactly the steps of a bar. -/
def Assignment.Resolves (patterns : Index Pattern) (assignment : Assignment) : Prop :=
  ∃ name pattern, assignment.pattern = some name ∧ name ≠ "" ∧
    patterns.get? name = some pattern ∧ pattern.steps.length = stepCount

/-- An assignment of a program: it stands in a statement, or in a scene of the index. -/
def Program.Assigns (program : Program) (assignment : Assignment) : Prop :=
  (∃ statement ∈ program.body, assignment ∈ statement.assignments) ∨
    ∃ entry ∈ program.scenes, assignment ∈ entry.2.assignments

namespace Assignment

variable {patterns : Index Pattern} {assignment : Assignment}

/-- The pattern of an assignment that resolves is found, and is a whole bar. -/
theorem Resolves.bind_get? (resolves : assignment.Resolves patterns) :
    ∃ pattern, (Program.given? assignment.pattern).bind patterns.get? = some pattern ∧
      pattern.steps.length = stepCount := by
  obtain ⟨name, pattern, asks, named, known, whole⟩ := resolves
  refine ⟨pattern, ?_, whole⟩
  rw [asks, Program.given?_of_ne named]
  exact known

/-- An assignment that resolves is expanded without a gap. -/
theorem Resolves.complete (resolves : assignment.Resolves patterns) :
    assignment.Complete patterns := by
  obtain ⟨pattern, known, whole⟩ := resolves.bind_get?
  exact ⟨pattern, known, Or.inr (Nat.le_of_eq whole.symm)⟩

end Assignment

/-- With rests, a voice writes something for every pattern. -/
theorem Voice.writes_ne_nil (voice : Voice) (steps : List Int) : voice.writes true steps ≠ [] := by
  intro none
  have first : (voice.base + (0 : Nat), steps.getD 0 0) ∈
      Instruction.stores (voice.writes true steps) :=
    mem_stores_writes.mpr ⟨0, by decide, Or.inr rfl, rfl⟩
  rw [none] at first
  exact List.not_mem_nil first

/-- No other names than the five are those of voices. -/
theorem Voice.ofName?_eq_none_iff {name : String} :
    ofName? name = none ↔ name ∉ ["kick", "snare", "lead", "bass", "noise"] := by
  have names : ["kick", "snare", "lead", "bass", "noise"] = all.map Voice.name := by decide
  rw [names, List.mem_map]
  constructor
  · rintro unknown ⟨voice, _, rfl⟩
    rw [voice.ofName?_name] at unknown
    contradiction
  · intro outside
    cases known : ofName? name with
    | none => rfl
    | some voice => exact absurd ⟨voice, voice.mem_all, (ofName?_eq_some_iff.mp known).symm⟩ outside

/-- With rests, an assignment whose pattern is known is silent only for an unknown voice. -/
theorem Assignment.Resolves.writes_eq_nil_iff {patterns : Index Pattern} {assignment : Assignment}
    (resolves : assignment.Resolves patterns) :
    Program.assignmentWrites patterns true assignment = [] ↔
      assignment.voice ∉ ["kick", "snare", "lead", "bass", "noise"] := by
  obtain ⟨pattern, known, _⟩ := resolves.bind_get?
  rw [← Voice.ofName?_eq_none_iff, Program.assignmentWrites, known]
  cases Voice.ofName? assignment.voice with
  | none => exact iff_of_true rfl rfl
  | some voice => exact iff_of_false (voice.writes_ne_nil _) (Option.some_ne_none voice)

namespace Program

variable {program : Program}

/-- A scene of the index is defined by a statement. -/
theorem scene_mem_body {entry : String × Scene} (member : entry ∈ program.scenes) :
    .scene entry.2 ∈ program.body := by
  obtain ⟨scene, defined, rfl⟩ := List.mem_map.mp (Index.mem_of_mem_ofList member)
  obtain ⟨statement, inside, defines⟩ := List.mem_filterMap.mp defined
  cases statement <;> try contradiction
  obtain rfl := Option.some.inj defines
  exact inside

/-- The assignments of a program are those of its statements. -/
theorem Assigns.stands {assignment : Assignment} (assigns : program.Assigns assignment) :
    ∃ statement ∈ program.body, assignment ∈ statement.assignments := by
  rcases assigns with stands | ⟨entry, member, inside⟩
  · exact stands
  · exact ⟨.scene entry.2, scene_mem_body member, inside⟩

/-- Only assignments of the program are expanded, also where scenes are played. -/
theorem assigns_of_expanded {statement : Statement} (member : statement ∈ program.body)
    {assignment : Assignment} (inside : assignment ∈ expanded program.scenes statement) :
    program.Assigns assignment := by
  cases statement with
  | play line name looped =>
    rw [expanded] at inside
    cases found : (given? name).bind program.scenes.get? with
    | none =>
      rw [found] at inside
      exact absurd inside List.not_mem_nil
    | some scene =>
      rw [found] at inside
      obtain ⟨known, _, last⟩ := Option.bind_eq_some_iff.mp found
      exact Or.inr ⟨(known, scene), Index.mem_of_get? last, inside⟩
  | _ => exact Or.inl ⟨_, member, inside⟩

end Program

namespace Compilation

variable {source : String}

/-- The patterns of a source have all their steps. -/
theorem length_steps {name : String} {pattern : Pattern}
    (known : (programOf source).patterns.get? name = some pattern) :
    pattern.steps.length = stepCount := by
  obtain ⟨same, defined, pair⟩ := List.mem_map.mp (Index.mem_of_get?_ofList known)
  obtain rfl : same = pattern := congrArg Prod.snd pair
  rw [Parse.steps_eq_decode _ same defined]
  exact Steps.length_decode _

/-- The assignments of a clean source name known patterns. -/
theorem resolves_of_clean (clean : Clean source) {assignment : Assignment}
    (assigns : (programOf source).Assigns assignment) :
    assignment.Resolves (programOf source).patterns := by
  obtain ⟨statement, member, inside⟩ := assigns.stands
  have named := Parse.named_ofTokens (Token.named_scan source) statement member
  have present := Parse.pattern_ne_none clean.parsed statement member assignment inside
  have fine := List.flatMap_eq_nil_iff.mp clean.checked statement member
  obtain ⟨name, asks⟩ := Option.ne_none_iff_exists'.mp present
  have nonempty : name ≠ "" := by
    rintro rfl
    exact named.pattern_ne_empty assignment inside asks
  have defined := Statement.defined_of_errors fine inside asks nonempty
  obtain ⟨pattern, known⟩ := Index.get?_of_mem_names defined
  exact ⟨name, pattern, asks, nonempty, known, length_steps known⟩

/-- In a clean source all assignments, of statements and of scenes in the index, name patterns that
are known and have all steps. With rests, those that write nothing are those that name no voice.
What a compilation makes of the source is made without passing over anything. -/
theorem references_resolve (clean : Clean source) :
    (∀ assignment, (programOf source).Assigns assignment →
      assignment.Resolves (programOf source).patterns ∧
      (Program.assignmentWrites (programOf source).patterns true assignment = [] ↔
        assignment.voice ∉ ["kick", "snare", "lead", "bass", "noise"])) ∧
    ∀ options, ∃ instructions,
      Entry.carefulInstructions ((programOf source).body.map .statement) options.clearRests =
        .ok instructions ∧
      Entry.instructions ((programOf source).body.map .statement) options.clearRests =
        .ok instructions ∧
      (ofSource options source).instructions = some instructions := by
  refine ⟨fun assignment assigns => ?_, fun options => ?_⟩
  · have resolves := resolves_of_clean clean assigns
    exact ⟨resolves, resolves.writes_eq_nil_iff⟩
  · have complete : ∀ statement ∈ (programOf source).body,
        ∀ assignment ∈ Program.expanded (programOf source).scenes statement,
          assignment.Complete (programOf source).patterns := by
      intro statement member assignment inside
      exact (resolves_of_clean clean (Program.assigns_of_expanded member inside)).complete
    refine ⟨(programOf source).instructions options.clearRests, ?_, ?_, ?_⟩
    · exact (Entry.carefulInstructions_eq_ok_iff _ _ _).mpr ⟨complete, rfl⟩
    · exact Entry.instructions_statements _ _
    · exact instructions_of_clean clean options

/-- A text that plays a scene before its patterns are defined, and defines it and one of them
again. No voice has the name `tom`. -/
def forwardSource : String :=
  "@play s loop\n@scene s kick: b tom: a\n@pattern a \"x\"\n@pattern b \"C4..X\"\n" ++
    "@scene s snare: a tom: b\n@pattern a \"..X\"\ntom: b"

/-- Patterns may be defined behind the scenes and assignments that name them, and a voice that is
not known stores nothing. -/
theorem references_resolve_forward :
    Clean forwardSource ∧
      (programOf forwardSource).scenes.get? "s" =
        some ⟨"s", [⟨"snare", some "a"⟩, ⟨"tom", some "b"⟩], 5⟩ ∧
      Assignment.Resolves (programOf forwardSource).patterns ⟨"kick", some "b"⟩ ∧
      Assignment.Resolves (programOf forwardSource).patterns ⟨"snare", some "a"⟩ ∧
      Program.assignmentWrites (programOf forwardSource).patterns true ⟨"tom", some "b"⟩ = [] ∧
      ∃ instructions, Entry.carefulInstructions ((programOf forwardSource).body.map .statement)
        false = .ok instructions := by
  have read : (Token.scan forwardSource).2 = [] ∧ (reading forwardSource).errors = [] ∧
      programOf forwardSource =
        ⟨[.play 1 (some "s") true,
          .scene ⟨"s", [⟨"kick", some "b"⟩, ⟨"tom", some "a"⟩], 2⟩,
          .pattern ⟨"a", "x", 1 :: List.replicate 15 0, 3⟩,
          .pattern ⟨"b", "C4..X", 60 :: 0 :: 0 :: 127 :: List.replicate 12 0, 4⟩,
          .scene ⟨"s", [⟨"snare", some "a"⟩, ⟨"tom", some "b"⟩], 5⟩,
          .pattern ⟨"a", "..X", 0 :: 0 :: 127 :: List.replicate 13 0, 6⟩,
          .assign 7 ⟨"tom", some "b"⟩]⟩ := by decide +kernel
  obtain ⟨scanned, parsed, program⟩ := read
  have clean : Clean forwardSource := by
    refine ⟨scanned, parsed, ?_⟩
    rw [program]
    decide
  have played : (programOf forwardSource).scenes.get? "s" =
      some ⟨"s", [⟨"snare", some "a"⟩, ⟨"tom", some "b"⟩], 5⟩ := by
    rw [program]
    decide
  have first : .scene ⟨"s", [⟨"kick", some "b"⟩, ⟨"tom", some "a"⟩], 2⟩ ∈
      (programOf forwardSource).body := by
    rw [program]
    decide
  have entry := Index.mem_of_get? played
  obtain ⟨resolve, expand⟩ := references_resolve clean
  have kick := resolve ⟨"kick", some "b"⟩ (Or.inl ⟨_, first, List.mem_cons_self⟩)
  have snare := resolve ⟨"snare", some "a"⟩ (Or.inr ⟨_, entry, List.mem_cons_self⟩)
  have tom := resolve ⟨"tom", some "b"⟩
    (Or.inr ⟨_, entry, List.mem_cons_of_mem _ List.mem_cons_self⟩)
  obtain ⟨instructions, made, _⟩ :=
    expand ⟨.text "asm", .text "Forward", .number 120, false⟩
  exact ⟨clean, played, kick.1, snare.1, tom.2.mpr (by decide), instructions, made⟩

end Compilation

end StepSequencer
