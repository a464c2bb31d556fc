import StepSequencer.Proofs.Clause.Order
import StepSequencer.Proofs.Compilation.Phases
import StepSequencer.Proofs.Program.Relocation

/-!
# Findings point into the source

Whatever a compilation finds before the delivery has a line of the source, and a column, if it has
one, in that line or right behind it. Places are made by the scanner alone, and it makes them by
walking over the text. What comes behind the scanner moves along when its tokens move; so moving all
places into the text, which moves none of the scanner's, changes no finding.

Findings are in the order of the source. Errors are of one phase only, and the warnings of the
reading stand in front of those of the checks.
-/
namespace StepSequencer

/-! ### Places in a text -/

/-- The characters of a line, counted from one. -/
def Text.row (text : List Char) (line : Int) : List Char :=
  ((text.splitOn '\n')[(line - 1).toNat]?).getD []

namespace Position

/-- A place at a character of a text or right behind a line of it. -/
structure Within (text : List Char) (place : Position) : Prop where
  first : 1 ≤ place.line
  last : place.line ≤ 1 + text.count '\n'
  left : 1 ≤ place.col
  right : place.col ≤ 1 + (Text.row text place.line).length

/-- Behind a walked part of a text, its current line is what was walked over in this line, and then
what is left of the line. -/
theorem exists_row (seen rest : List Char) :
    ∃ before : List Char, ((seen ++ rest).splitOn '\n').drop (seen.count '\n') =
        (rest.splitOn '\n').modifyHead (before ++ ·) ∧
      (Position.start.after seen).col = before.length + 1 := by
  induction seen using List.reverseRec generalizing rest with
  | nil => exact ⟨[], (congrFun List.modifyHead_id _).symm, rfl⟩
  | append_singleton seen c ih =>
    -- the next character belongs to the rest of the shorter walk
    obtain ⟨before, rows, col⟩ := ih (c :: rest)
    rw [List.splitOn, List.splitOn, List.splitOnP_cons_eq_if_modifyHead] at rows
    rw [List.append_assoc, List.singleton_append, List.count_append, after_append, after_cons,
      after_nil, step]
    by_cases feed : c = '\n'
    · subst feed
      refine ⟨[], ?_, by rw [if_pos rfl]; rfl⟩
      rw [List.count_singleton_self, ← List.drop_drop, List.splitOn, rows,
        if_pos (beq_self_eq_true _)]
      exact (congrFun List.modifyHead_id _).symm
    · have other : ¬(c == '\n') = true := by simpa using feed
      refine ⟨before ++ [c], ?_, ?_⟩
      · rw [List.count_singleton, if_neg other, Nat.add_zero, List.splitOn, rows, if_neg other,
          List.modifyHead_modifyHead]
        simp [Function.comp_def, List.splitOn]
      · rw [if_neg feed, List.length_append, List.length_singleton]
        show (Position.start.after seen).col + 1 = _
        omega

/-- A text has one line more than line feeds. -/
theorem length_rows (text : List Char) : (text.splitOn '\n').length = text.count '\n' + 1 := by
  obtain ⟨before, rows, _⟩ := exists_row text []
  have length := congrArg List.length rows
  rw [List.append_nil, List.length_drop, List.length_modifyHead] at length
  have one : (([] : List Char).splitOn '\n').length = 1 := rfl
  omega

/-- Walking over a part of a text leads to a place in the text. -/
theorem within_after {seen text : List Char} (walked : seen <+: text) :
    (Position.start.after seen).Within text := by
  obtain ⟨rest, rfl⟩ := walked
  obtain ⟨before, rows, col⟩ := exists_row seen rest
  have line : (start.after seen).line = 1 + seen.count '\n' := line_after start seen
  have index : ((start.after seen).line - 1).toNat = seen.count '\n' := by omega
  have row : before.length ≤ (Text.row (seen ++ rest) (start.after seen).line).length := by
    have nonempty : (rest.splitOn '\n') ≠ [] := by
      rw [← List.length_pos_iff, length_rows]
      omega
    obtain ⟨left, others, split⟩ := List.exists_cons_of_ne_nil nonempty
    rw [split, List.modifyHead_cons] at rows
    rw [Text.row, index, ← List.head?_drop, rows, List.head?_cons, Option.getD_some,
      List.length_append]
    omega
  refine ⟨by omega, ?_, by omega, by omega⟩
  rw [List.count_append]
  omega

end Position

/-- A value is left alone just if it is within its limits. -/
theorem clamp_eq_self_iff {low high value : Int} (proper : low ≤ high) :
    clamp low high value = value ↔ low ≤ value ∧ value ≤ high := by
  unfold clamp
  omega

/-- Lines and columns outside of a text become the nearest inside. -/
def Relocation.into (text : List Char) : Relocation where
  place position :=
    let line := clamp 1 (1 + text.count '\n') position.line
    ⟨line, clamp 1 (1 + (Text.row text line).length) position.col⟩
  line := clamp 1 (1 + text.count '\n')
  line_place _ := rfl

/-- Just the places in a text stay when all places are moved into it. -/
theorem Relocation.into_eq_self_iff {text : List Char} {place : Position} :
    (into text).place place = place ↔ place.Within text := by
  obtain ⟨line, col⟩ := place
  have lines : (1 : Int) ≤ 1 + text.count '\n' := by omega
  have columns : (1 : Int) ≤ 1 + (Text.row text line).length := by omega
  constructor
  · intro stays
    obtain ⟨row, column⟩ := Position.mk.inj stays
    rw [row] at column
    have inside := (clamp_eq_self_iff lines).mp row
    have across := (clamp_eq_self_iff columns).mp column
    exact ⟨inside.1, inside.2, across.1, across.2⟩
  · rintro ⟨first, last, left, right⟩
    have row := (clamp_eq_self_iff lines).mpr ⟨first, last⟩
    have column := (clamp_eq_self_iff columns).mpr ⟨left, right⟩
    simp only [into, row, column]

namespace Diagnostic

/-- A finding in a line of a source, and in this line or right behind it if it has a column. -/
def PointsInto (source : String) (diagnostic : Diagnostic) : Prop :=
  ∃ line row, diagnostic.line = some line ∧
    1 ≤ line ∧ line ≤ 1 + source.toList.count '\n' ∧
    (source.toList.splitOn '\n')[(line - 1).toNat]? = some row ∧
    ∀ col ∈ diagnostic.col, 1 ≤ col ∧ col ≤ 1 + row.length

/-- A finding that stays when places are moved into the source points into the source. -/
theorem Located.pointsInto {source : String} {diagnostic : Diagnostic}
    (located : diagnostic.Located) (stays : diagnostic.relocate (.into source.toList) = diagnostic)
    (phase : Phase) : (diagnostic.inPhase phase).PointsInto source := by
  have row {line : Int} (first : 1 ≤ line) (last : line ≤ 1 + source.toList.count '\n') :
      (source.toList.splitOn '\n')[(line - 1).toNat]? = some (Text.row source.toList line) := by
    have rows := Position.length_rows source.toList
    rw [Text.row, List.getElem?_eq_getElem (by omega), Option.getD_some]
  cases located with
  | atPosition known place =>
    have line := Option.some.inj (congrArg Diagnostic.line stays)
    have col := Option.some.inj (congrArg Diagnostic.col stays)
    have fixed : (Relocation.into source.toList).place place = place :=
      congrArg₂ Position.mk line col
    obtain ⟨first, last, left, right⟩ := Relocation.into_eq_self_iff.mp fixed
    refine ⟨place.line, _, rfl, first, last, row first last, fun other given => ?_⟩
    obtain rfl := Option.some.inj given
    exact ⟨left, right⟩
  | atLine known line =>
    have fixed := Option.some.inj (congrArg Diagnostic.line stays)
    obtain ⟨first, last⟩ := (clamp_eq_self_iff (by omega)).mp fixed
    exact ⟨line, _, rfl, first, last, row first last,
      fun col given => absurd given (Option.not_mem_none col)⟩

/-- Findings of items in the order of the text, each in the line of its item. -/
theorem pairwise_flatMap {α : Type} {items : List α} (line : α → Int)
    (ordered : (items.map line).Pairwise (· ≤ ·)) {findings : α → List Diagnostic}
    (placed : ∀ item, ∀ finding ∈ findings item, finding.InLine (line item)) :
    (items.flatMap findings).Pairwise Precedes := by
  have within {item other : α} (before : line item ≤ line other) :
      ∀ finding ∈ findings item, ∀ further ∈ findings other, Precedes finding further := by
    intro finding member further later
    obtain ⟨problem, _, rfl⟩ := placed item finding member
    obtain ⟨question, _, rfl⟩ := placed other further later
    refine ⟨_, _, rfl, rfl, ?_⟩
    rcases Int.lt_or_eq_of_le before with less | same
    · exact .inl less
    · exact .inr ⟨same, fun col none => absurd none (Option.not_mem_none col)⟩
  rw [List.pairwise_map] at ordered
  rw [List.pairwise_flatMap]
  refine ⟨fun item _ => ?_, ordered.imp fun before => within before⟩
  exact List.pairwise_of_forall_mem_list (within (Int.le_refl _))

end Diagnostic

namespace Compilation

open Diagnostic (Precedes pairwise_flatMap)

variable (source : String)

/-- What is found in a source before it is delivered. -/
def findings : List Diagnostic :=
  (Token.scan source).2 ++ (reading source).errors ++ (reading source).warnings ++
    (programOf source).lintErrors ++ (programOf source).lintWarnings

/-- What is found before the delivery has a line. -/
theorem findings_located : ∀ finding ∈ findings source, finding.Located := by
  simp only [findings, List.forall_mem_append]
  refine ⟨⟨⟨⟨?_, ?_⟩, ?_⟩, ?_⟩, ?_⟩
  · intro problem found
    obtain ⟨seen, _, rfl⟩ := (Token.scanFrom_walked .start source.toList).2 problem found
    exact .atPosition rfl _
  · intro error found
    obtain ⟨clause, _, found⟩ := List.mem_flatMap.mp found
    exact clause.errors_located error found
  · intro warning found
    obtain ⟨clause, _, found⟩ := List.mem_flatMap.mp found
    exact (clause.warnings_inLine warning found).located
  · intro error found
    obtain ⟨statement, _, found⟩ := List.mem_flatMap.mp found
    exact (statement.errors_inLine _ error found).located
  · intro warning found
    obtain ⟨statement, _, found⟩ := List.mem_flatMap.mp found
    exact (statement.warnings_inLine warning found).located

/-- The tokens of a source have an end of input. -/
theorem scan_ends : ∃ token ∈ (Token.scan source).1, token.lexeme.isEnd = true := by
  obtain ⟨tokens, split, _⟩ := Token.scanFrom_feed .start source.toList
  rw [Token.scan, split]
  exact ⟨_, List.mem_append_right tokens List.mem_cons_self, rfl⟩

/-- Moving that leaves what the scanner makes where it is moves nothing that is found later. -/
theorem findings_stay {move : Relocation}
    (tokens : ∀ token ∈ (Token.scan source).1, token.relocate move = token)
    (problems : ∀ problem ∈ (Token.scan source).2, problem.relocate move = problem) :
    ∀ finding ∈ findings source, finding.relocate move = finding := by
  have kept {items : List Diagnostic} (same : items.map (Diagnostic.relocate move) = items) :
      ∀ item ∈ items, item.relocate move = id item := by
    rw [← List.map_inj_left, same, List.map_id]
  have moved := Parse.ofTokens_relocate move (scan_ends source)
  have unmoved : (Token.scan source).1.map (Token.relocate move) = (Token.scan source).1 :=
    (List.map_congr_left tokens).trans (List.map_id _)
  rw [unmoved] at moved
  have program : (programOf source).relocate move = programOf source :=
    (congrArg Parse.program moved).symm
  have errors := (programOf source).lintErrors_relocate move
  have warnings := (programOf source).lintWarnings_relocate move
  rw [program] at errors warnings
  simp only [findings, List.forall_mem_append]
  refine ⟨⟨⟨⟨problems, ?_⟩, ?_⟩, kept errors.symm⟩, kept warnings.symm⟩
  · exact kept (congrArg Parse.errors moved).symm
  · exact kept (congrArg Parse.warnings moved).symm

/-- All that is found in a source before it is delivered points into the source. -/
theorem findings_pointInto (phase : Phase) :
    ∀ finding ∈ findings source, (finding.inPhase phase).PointsInto source := by
  intro finding found
  refine (findings_located source finding found).pointsInto ?_ phase
  have walked := Token.scanFrom_walked .start source.toList
  refine findings_stay source (fun token member => ?_) (fun problem member => ?_) finding found
  · obtain ⟨seen, start, place⟩ := walked.1 token member
    rw [Token.relocate, place, Relocation.into_eq_self_iff.mpr (Position.within_after start),
      ← place]
  · obtain ⟨seen, start, rfl⟩ := walked.2 problem member
    rw [Diagnostic.relocate_atPosition,
      Relocation.into_eq_self_iff.mpr (Position.within_after start)]

/-- What a compilation can find: what is found before the delivery, ascribed to a phase, and an
unknown target. -/
inductive Found (options : Options) : Diagnostic → Prop where
  | early {bare : Diagnostic} (phase : Phase) (found : bare ∈ findings source) :
      Found options (bare.inPhase phase)
  | unknownTarget :
      Found options ⟨.unknownTarget options.target.shown, none, none, some .backend⟩

/-- A compilation reports nothing but what can be found. -/
theorem ofSource_found (options : Options) :
    ∀ finding ∈ (ofSource options source).errors ++ (ofSource options source).warnings,
      Found source options finding := by
  have ascribed (items : List Diagnostic) (phase : Phase)
      (part : ∀ finding ∈ items, finding ∈ findings source) :
      ∀ finding ∈ items.map (Diagnostic.inPhase phase), Found source options finding := by
    intro finding member
    obtain ⟨bare, found, rfl⟩ := List.mem_map.mp member
    exact .early phase (part bare found)
  have read := ascribed (reading source).warnings .parser
    fun warning found => by simp [findings, found]
  have checked := ascribed (programOf source).lintWarnings .linter
    fun warning found => by simp [findings, found]
  have warned := List.forall_mem_append.mpr ⟨read, checked⟩
  obtain ⟨ending, outcome⟩ := ofSource_outcome options source
  generalize ofSource options source = compilation at outcome
  rw [List.forall_mem_append]
  cases outcome with
  | scanning =>
    exact ⟨ascribed _ .lexer fun error found => by simp [findings, found], List.forall_mem_nil _⟩
  | reading => exact ⟨ascribed _ .parser fun error found => by simp [findings, found], read⟩
  | checking => exact ⟨ascribed _ .linter fun error found => by simp [findings, found], warned⟩
  | delivery => exact ⟨List.forall_mem_singleton.mpr .unknownTarget, warned⟩
  | success => exact ⟨List.forall_mem_nil _, warned⟩

/-! ### The order of findings -/

/-- The tokens of a source are in the order of the text. -/
theorem ordered_tokens :
    Clause.Ordered (Clause.endPlace (Token.scan source).1) (Clause.content (Token.scan source).1) :=
  Clause.ordered_content (Token.scanFrom_ordered .start source.toList) (scan_ends source)

/-- The errors of the scanner are in the order of the text. -/
theorem scan_pairwise : (Token.scan source).2.Pairwise Precedes :=
  (Token.scanFrom_spanned .start source.toList).pairwise

/-- The errors of the parser are in the order of the text. -/
theorem reading_errors_pairwise : (reading source).errors.Pairwise Precedes :=
  (Clause.group_spanned (ordered_tokens source)).pairwise

/-- The warnings of the parser are in the order of the text. -/
theorem reading_warnings_pairwise : (reading source).warnings.Pairwise Precedes :=
  pairwise_flatMap Clause.line (Clause.lines_ordered (ordered_tokens source)) Clause.warnings_inLine

/-- The errors of the check are in the order of the text. -/
theorem lintErrors_pairwise : (programOf source).lintErrors.Pairwise Precedes :=
  pairwise_flatMap Statement.line (Clause.statement_lines_ordered (ordered_tokens source))
    (Statement.errors_inLine _)

/-- The warnings of the check are in the order of the text. -/
theorem lintWarnings_pairwise : (programOf source).lintWarnings.Pairwise Precedes :=
  pairwise_flatMap Statement.line (Clause.statement_lines_ordered (ordered_tokens source))
    Statement.warnings_inLine

/-- Whatever a compilation finds before the delivery points into the source. Its errors are in the
order of the source, and so are the warnings of the reading and, behind them, those of the
checks. -/
theorem ofSource_places (options : Options) :
    (∀ finding ∈ (ofSource options source).errors ++ (ofSource options source).warnings,
      finding.phase ≠ some .backend → finding.PointsInto source) ∧
    (ofSource options source).errors.Pairwise Precedes ∧
    ∃ parsed checked, (ofSource options source).warnings = parsed ++ checked ∧
      (∀ warning ∈ parsed, warning.phase = some .parser) ∧
      (∀ warning ∈ checked, warning.phase = some .linter) ∧
      parsed.Pairwise Precedes ∧ checked.Pairwise Precedes := by
  refine ⟨fun finding member early => ?_, ?_⟩
  · cases ofSource_found source options finding member with
    | early phase found => exact findings_pointInto source phase _ found
    | unknownTarget => exact absurd rfl early
  have phased {items : List Diagnostic} (phase : Phase) :
      ∀ finding ∈ items.map (Diagnostic.inPhase phase), finding.phase = some phase := by
    intro finding member
    obtain ⟨bare, _, rfl⟩ := List.mem_map.mp member
    rfl
  -- a finding stands where it stands, whatever phase it is ascribed to
  have keeps {items : List Diagnostic} (phase : Phase) (ordered : items.Pairwise Precedes) :
      (items.map (Diagnostic.inPhase phase)).Pairwise Precedes :=
    List.pairwise_map.mpr ordered
  have read := keeps .parser (reading_warnings_pairwise source)
  have checked := keeps .linter (lintWarnings_pairwise source)
  obtain ⟨ending, outcome⟩ := ofSource_outcome options source
  generalize ofSource options source = compilation at outcome
  cases outcome with
  | scanning log found =>
    exact ⟨keeps .lexer (scan_pairwise source), [], [], rfl, List.forall_mem_nil _,
      List.forall_mem_nil _, .nil, .nil⟩
  | reading log scanned found =>
    exact ⟨keeps .parser (reading_errors_pairwise source), _, [], (List.append_nil _).symm,
      phased .parser, List.forall_mem_nil _, read, .nil⟩
  | checking log scanned parsed found =>
    exact ⟨keeps .linter (lintErrors_pairwise source), _, _, rfl, phased .parser, phased .linter,
      read, checked⟩
  | delivery log clean unknown =>
    exact ⟨List.pairwise_singleton .., _, _, rfl, phased .parser, phased .linter, read, checked⟩
  | success log clean known =>
    exact ⟨.nil, _, _, rfl, phased .parser, phased .linter, read, checked⟩

end Compilation
end StepSequencer
