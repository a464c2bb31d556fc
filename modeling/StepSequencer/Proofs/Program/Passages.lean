import StepSequencer.Proofs.Compilation.Phases
import StepSequencer.Proofs.Program.Relocation
import StepSequencer.Proofs.Token.Reading

/-!
# Programs written passage by passage

A passage is one statement as it is written: a line, or for a scene a line and one more for each
assignment. The text of readable passages is scanned and read as the statements of the passages, up
to the lines on which they stand, and without any error.
-/
namespace StepSequencer

namespace Token

/-- A text is read as words, with line feeds between them that do not count, whatever follows it. -/
def Spells (text : List Char) (words : List (Lexeme Int)) : Prop :=
  ∀ rest, ∃ lexemes, Reads (text ++ rest) lexemes rest ∧
    (lexemes.filter fun lexeme => !lexeme.isNewline) = words

/-- An empty text is read as no words. -/
theorem Spells.nil : Spells [] [] := fun rest => ⟨[], .done rest, rfl⟩

/-- Texts in a row are read one after the other. -/
theorem Spells.append {first second : List Char} {words others : List (Lexeme Int)}
    (front : Spells first words) (back : Spells second others) :
    Spells (first ++ second) (words ++ others) := by
  intro rest
  obtain ⟨lexemes, reads, rfl⟩ := front (second ++ rest)
  obtain ⟨more, goesOn, rfl⟩ := back rest
  refine ⟨lexemes ++ more, ?_, List.filter_append lexemes more⟩
  rw [List.append_assoc]
  exact reads.trans goesOn

/-- Texts in a row are read one after the other. -/
theorem Spells.flatMap {α : Type} {items : List α} {text : α → List Char}
    {words : α → List (Lexeme Int)} (each : ∀ item ∈ items, Spells (text item) (words item)) :
    Spells (items.flatMap text) (items.flatMap words) := by
  induction items with
  | nil => exact .nil
  | cons item items ih =>
    rw [List.flatMap_cons, List.flatMap_cons]
    exact (each item List.mem_cons_self).append
      (ih fun other member => each other (List.mem_cons_of_mem item member))

/-- A lexeme without a place. -/
def unplaced (lexeme : Lexeme Int) : Token Int := ⟨lexeme, .start⟩

/-- The tokens of a text that spells words are these words, and no string is open. -/
theorem scan_of_spells {source : String} {words : List (Lexeme Int)}
    (spells : Spells source.toList words) (inner : ∀ word ∈ words, word.isEnd = false) :
    (scan source).2 = [] ∧ (∃ token ∈ (scan source).1, token.lexeme.isEnd = true) ∧
      Clause.content ((scan source).1.map (Token.relocate .forget)) = words.map unplaced := by
  obtain ⟨lexemes, reads, filtered⟩ := spells []
  rw [List.append_nil] at reads
  obtain ⟨tokens, problems⟩ := scanFrom_of_reads reads .start
  refine ⟨problems, ?_, ?_⟩
  · have last : Lexeme.endOfInput ∈ (scanFrom .start source.toList).1.map Token.lexeme := by
      rw [tokens]
      exact List.mem_append_right lexemes List.mem_cons_self
    obtain ⟨token, member, same⟩ := List.mem_map.mp last
    exact ⟨token, member, by rw [same]; rfl⟩
  · have places : (scan source).1.map (Token.relocate .forget) =
        ((scan source).1.map Token.lexeme).map unplaced := by
      rw [List.map_map]
      rfl
    have all : ∀ token ∈ words.map unplaced, (!token.lexeme.isEnd) = true := by
      intro token member
      obtain ⟨word, known, rfl⟩ := List.mem_map.mp member
      rw [unplaced, inner word known]
      rfl
    have kept : (lexemes.map unplaced).filter (fun token => !token.lexeme.isNewline) =
        words.map unplaced := by
      rw [List.filter_map, ← filtered]
      rfl
    rw [places, scan, tokens, Clause.content, List.map_append, List.filter_append, kept,
      List.takeWhile_append_of_pos all]
    exact List.append_nil _

/-- A word that is read as an identifier of the same spelling. -/
def IsName (name : String) : Prop :=
  name.toList.head?.any isNameStart = true ∧ name.toList.all isNameChar = true ∧
    lowerName name.toList = name

/-- Whether a text is a name can be computed. -/
instance (name : String) : Decidable (IsName name) := inferInstanceAs (Decidable (_ ∧ _))

/-- A name is read up to a character that no name has. -/
theorem reads_name {name : String} (isName : IsName name) {rest : List Char}
    (stops : Text.Stops isNameChar rest) :
    Reads (name.toList ++ rest) [.identifier name] rest := by
  obtain ⟨start, all, lower⟩ := isName
  cases shape : name.toList with
  | nil => rw [shape] at start; contradiction
  | cons c chars =>
    rw [shape] at start all lower
    have others : ∀ d ∈ chars, isNameChar d = true := fun d member =>
      List.all_eq_true.mp all d (List.mem_cons_of_mem c member)
    have reads := reads_identifier start others stops
    rwa [lower] at reads

/-- A directive is read up to a character that no name has. -/
theorem reads_directive_name (directive : Directive) {rest : List Char}
    (stops : Text.Stops isNameChar rest) :
    Reads ('@' :: (directive.name.toList ++ rest)) [.directive directive.name] rest := by
  have all : directive.name.toList.all isNameChar = true := by
    cases directive <;> decide
  have lower : lowerName directive.name.toList = directive.name := by
    cases directive <;> decide
  have reads := reads_directive (List.all_eq_true.mp all) stops
  rwa [lower] at reads

/-- A text is read as words up to the end of its line. -/
structure Fills (text : List Char) (words : List (Lexeme Int)) : Prop where
  reads : ∀ rest, Reads (text ++ '\n' :: rest) words ('\n' :: rest)
  inline : words.all (fun word => !word.isNewline) = true

/-- An empty line is read as no words. -/
theorem fills_nil : Fills [] [] := ⟨fun rest => .done ('\n' :: rest), rfl⟩

/-- A comment is read up to the end of its line. -/
theorem fills_comment {text : List Char} (plain : '\n' ∉ text) :
    Fills ('#' :: text) [.comment (String.ofList (Text.trim text))] :=
  ⟨fun rest => reads_comment plain rest, rfl⟩

/-- A number is read up to the end of its line. -/
theorem fills_number (n : Nat) : Fills (Text.decimalChars n) [.number n] :=
  ⟨fun rest =>
    reads_decimal n (Text.stops_cons rest (by decide)) (Text.stops_cons rest (by decide)), rfl⟩

/-- A name is read up to the end of its line. -/
theorem fills_name {name : String} (isName : IsName name) :
    Fills name.toList [.identifier name] :=
  ⟨fun rest => reads_name isName (Text.stops_cons rest (by decide)), rfl⟩

/-- A string is read up to the end of its line. -/
theorem fills_string {text : String} (plain : '"' ∉ text.toList ∧ '\n' ∉ text.toList) :
    Fills ('"' :: (text.toList ++ ['"'])) [.string text] := by
  refine ⟨fun rest => ?_, rfl⟩
  have reads := reads_string plain.1 plain.2 ('\n' :: rest)
  rw [String.ofList_toList] at reads
  rwa [List.cons_append, List.append_assoc]

/-- Words with a front before them that is read wherever they follow it. -/
theorem Fills.behind {front text : List Char} {word : Lexeme Int} {words : List (Lexeme Int)}
    (fills : Fills text words) (first : ∀ rest, Reads (front ++ text ++ rest) [word] (text ++ rest))
    (inline : word.isNewline = false) : Fills (front ++ text) (word :: words) := by
  refine ⟨fun rest => (first ('\n' :: rest)).trans (fills.reads rest), ?_⟩
  rw [List.all_cons, inline, fills.inline]
  rfl

/-- A blank before words does not count. -/
theorem Fills.behind_blank {text : List Char} {words : List (Lexeme Int)}
    (fills : Fills text words) : Fills (' ' :: text) words :=
  ⟨fun rest => (reads_blank _).trans (fills.reads rest), fills.inline⟩

/-- A colon before words is read on its own. -/
theorem Fills.behind_colon {text : List Char} {words : List (Lexeme Int)}
    (fills : Fills text words) : Fills (':' :: text) (.colon :: words) := by
  have reads (rest : List Char) : Reads ([':'] ++ text ++ rest) [.colon] (text ++ rest) :=
    reads_colon (text ++ rest)
  exact fills.behind reads rfl

/-- A directive with a blank and its operands behind it. -/
theorem Fills.behind_directive {text : List Char} {words : List (Lexeme Int)}
    (fills : Fills text words) (directive : Directive) :
    Fills ('@' :: directive.name.toList ++ ' ' :: text) (.directive directive.name :: words) := by
  refine fills.behind_blank.behind (fun rest => ?_) rfl
  rw [List.append_assoc]
  exact reads_directive_name directive (Text.stops_cons _ (by decide))

/-- A name with a character behind it that no name can hold. -/
theorem Fills.behind_name {c : Char} {text : List Char} {words : List (Lexeme Int)}
    (fills : Fills (c :: text) words) {name : String} (isName : IsName name)
    (stops : isNameChar c = false) :
    Fills (name.toList ++ c :: text) (.identifier name :: words) := by
  refine fills.behind (fun rest => ?_) rfl
  rw [List.append_assoc]
  exact reads_name isName (Text.stops_cons _ stops)

/-- A hexadecimal number and a blank before words are read as the number. -/
theorem Fills.behind_hexUpper {text : List Char} {words : List (Lexeme Int)}
    (fills : Fills text words) (width n : Nat) :
    Fills ('$' :: Text.hexUpperChars width n ++ ' ' :: text) (.number n :: words) := by
  refine fills.behind_blank.behind (fun rest => ?_) rfl
  rw [List.append_assoc]
  exact reads_hexUpper width n (Text.stops_cons _ (by decide))

/-- A line that is filled with words spells them. -/
theorem Fills.spells {text : List Char} {words : List (Lexeme Int)} (fills : Fills text words) :
    Spells (text ++ ['\n']) words := by
  intro rest
  refine ⟨words ++ [.newline], ?_, ?_⟩
  · rw [List.append_assoc]
    exact (fills.reads rest).trans (reads_newline rest)
  · rw [List.filter_append, List.filter_eq_self.mpr (List.all_eq_true.mp fills.inline)]
    exact List.append_nil words

end Token

/-- A statement as it is written. -/
inductive Passage where
  | blank
  | comment (text : String)
  | title (text : String)
  | tempo (bpm : Int)
  | poke (address value : Int)
  | pattern (name text : String)
  | scene (name : String) (assignments : List (String × String))
  | play (name : String) (looped : Bool)
deriving DecidableEq, Repr

namespace Passage

/-- The lines of a passage. -/
def lines : Passage → List String
  | blank => [""]
  | comment text => ["# " ++ text]
  | title text => ["@title \"" ++ text ++ "\""]
  | tempo bpm => ["@tempo " ++ Text.decimal bpm]
  | poke address value => ["@poke $" ++ Text.hexUpper 4 address ++ " " ++ Text.decimal value]
  | pattern name text => ["@pattern " ++ name ++ " \"" ++ text ++ "\""]
  | scene name assignments =>
    ("@scene " ++ name) :: assignments.map fun assignment =>
      assignment.1 ++ ": " ++ assignment.2
  | play name looped => ["@play " ++ name ++ if looped then " loop" else ""]

/-- The words of a passage. -/
def words : Passage → List (Lexeme Int)
  | blank => []
  | comment text => [.comment (String.ofList (Text.trim (' ' :: text.toList)))]
  | title text => [.directive "title", .string text]
  | tempo bpm => [.directive "tempo", .number bpm]
  | poke address value => [.directive "poke", .number address, .number value]
  | pattern name text => [.directive "pattern", .identifier name, .string text]
  | scene name assignments =>
    .directive "scene" :: .identifier name :: assignments.flatMap fun assignment =>
      [.identifier assignment.1, .colon, .identifier assignment.2]
  | play name looped =>
    .directive "play" :: .identifier name :: if looped then [.identifier "loop"] else []

/-- The clause of a passage, without its place. -/
def clause? : Passage → Option (Clause Int)
  | blank => none
  | comment text =>
    some (.comment Position.start.line (String.ofList (Text.trim (' ' :: text.toList))))
  | title text => some (.title Position.start.line (.found text))
  | tempo bpm => some (.tempo Position.start.line (.found bpm))
  | poke address value => some (.poke Position.start.line (.found address) (.found value))
  | pattern name text => some (.pattern Position.start.line (.found name) (.found text))
  | scene name assignments =>
    some (.scene Position.start.line (.found name)
      (assignments.map fun assignment => .assign assignment.1 (.found assignment.2)))
  | play name looped => some (.play Position.start.line (some name) looped)

/-- A passage whose parts are read as they are written. -/
def Readable : Passage → Prop
  | blank => True
  | comment text => '\n' ∉ text.toList
  | title text => '"' ∉ text.toList ∧ '\n' ∉ text.toList
  | tempo bpm => 0 ≤ bpm
  | poke address value => 0 ≤ address ∧ 0 ≤ value
  | pattern name text => Token.IsName name ∧ '"' ∉ text.toList ∧ '\n' ∉ text.toList
  | scene name assignments =>
    Token.IsName name ∧ ∀ assignment ∈ assignments,
      Token.IsName assignment.1 ∧ Token.IsName assignment.2
  | play name _ => Token.IsName name

/-- The text of lines, each with its line feed. -/
def textOf (lines : List String) : List Char := lines.flatMap fun line => line.toList ++ ['\n']

open Token

/-- A line is read as the words that fill it, whatever follows it. -/
theorem spells_line {line : String} {text : List Char} {words : List (Lexeme Int)}
    (fills : Fills text words) (layout : line.toList = text) : Spells (textOf [line]) words := by
  rw [textOf, List.flatMap_singleton, layout]
  exact fills.spells

/-- A scene is read as its words, whatever follows it. -/
theorem spells_scene {name : String} {assignments : List (String × String)}
    (readable : (scene name assignments).Readable) :
    Spells (textOf (scene name assignments).lines) (scene name assignments).words := by
  have head : Spells (("@scene " ++ name).toList ++ ['\n'])
      [.directive "scene", .identifier name] := by
    have fills := (fills_name readable.1).behind_directive .scene
    have layout : ("@scene " ++ name).toList =
        '@' :: Directive.scene.name.toList ++ ' ' :: name.toList := by
      simp [Directive.name]
    rw [layout]
    exact fills.spells
  have member (assignment : String × String)
      (names : IsName assignment.1 ∧ IsName assignment.2) :
      Spells ((assignment.1 ++ ": " ++ assignment.2).toList ++ ['\n'])
        [.identifier assignment.1, .colon, .identifier assignment.2] := by
    have fills := (fills_name names.2).behind_blank.behind_colon.behind_name names.1 (by decide)
    have layout : (assignment.1 ++ ": " ++ assignment.2).toList =
        assignment.1.toList ++ ':' :: ' ' :: assignment.2.toList := by
      simp
    rw [layout]
    exact fills.spells
  have members := Spells.flatMap fun assignment known =>
    member assignment (readable.2 assignment known)
  rw [textOf, lines, List.flatMap_cons, List.flatMap_map]
  exact head.append members

/-- A readable passage is read as its words. -/
theorem spells_words {passage : Passage} (readable : passage.Readable) :
    Spells (textOf passage.lines) passage.words := by
  cases passage with
  | blank => exact spells_line fills_nil rfl
  | comment text =>
    have plain : '\n' ∉ ' ' :: text.toList := by
      rw [List.mem_cons, not_or]
      exact ⟨by decide, readable⟩
    exact spells_line (fills_comment plain) (by simp)
  | title text =>
    exact spells_line ((fills_string readable).behind_directive .title) (by simp [Directive.name])
  | tempo bpm =>
    obtain ⟨n, rfl⟩ := Int.eq_ofNat_of_zero_le readable
    exact spells_line ((fills_number n).behind_directive .tempo)
      (by simp [Directive.name, Text.decimal])
  | poke address value =>
    obtain ⟨a, rfl⟩ := Int.eq_ofNat_of_zero_le readable.1
    obtain ⟨v, rfl⟩ := Int.eq_ofNat_of_zero_le readable.2
    exact spells_line (((fills_number v).behind_hexUpper 4 a).behind_directive .poke)
      (by simp [Directive.name, Text.decimal, Text.hexUpper])
  | pattern name text =>
    have operands := (fills_string readable.2).behind_blank.behind_name readable.1 (by decide)
    exact spells_line (operands.behind_directive .pattern) (by simp [Directive.name])
  | scene name assignments => exact spells_scene readable
  | play name looped =>
    cases looped with
    | false =>
      exact spells_line ((fills_name readable).behind_directive .play) (by simp [Directive.name])
    | true =>
      have loop := fills_name (show IsName "loop" by decide)
      have operands := loop.behind_blank.behind_name readable (by decide)
      exact spells_line (operands.behind_directive .play) (by simp [Directive.name])

/-- No passage holds an end of input. -/
theorem any_isEnd_words (passage : Passage) : passage.words.any Lexeme.isEnd = false := by
  cases passage with
  | scene name assignments => simp [words, Lexeme.isEnd]
  | play name looped => cases looped <;> rfl
  | _ => rfl

/-- A passage does not start with a name. -/
theorem head_words (passages : List Passage) (token : Token Int)
    (first : ((passages.flatMap words).map unplaced).head? = some token) :
    token.lexeme.name? = none := by
  induction passages with
  | nil => contradiction
  | cons passage passages ih =>
    cases passage with
    | blank => exact ih first
    | _ =>
      obtain rfl := Option.some.inj first
      rfl

/-- No name is taken where none is next. -/
theorem takeName?_of_head {rest : List (Token Int)}
    (ends : ∀ token, rest.head? = some token → token.lexeme.name? = none) :
    Clause.takeName? rest = (none, rest) := by
  cases rest with
  | nil => rfl
  | cons token rest => rw [Clause.takeName?, ends token rfl]

/-- The assignments of a scene are taken up to where no name follows. -/
theorem takeMembers_assignments (stop : Position) (assignments : List (String × String))
    {rest : List (Token Int)}
    (ends : ∀ token, rest.head? = some token → token.lexeme.name? = none) :
    Clause.takeMembers stop ((assignments.flatMap fun assignment =>
      [.identifier assignment.1, .colon, .identifier assignment.2]).map unplaced ++ rest) =
      (assignments.map fun assignment => .assign assignment.1 (.found assignment.2), rest) := by
  induction assignments with
  | nil =>
    cases rest with
    | nil => simp [Clause.takeMembers]
    | cons token rest =>
      have unnamed := ends token rfl
      rw [List.flatMap_nil, List.map_nil, List.nil_append, Clause.takeMembers]
      simp only [unnamed, List.map_nil]
  | cons assignment assignments ih =>
    simp only [List.flatMap_cons, List.cons_append, List.nil_append, List.map_cons]
    rw [Clause.takeMembers]
    exact congrArg
      (fun items => (.assign assignment.1 (.found assignment.2) :: items.1, items.2)) ih

/-- The words of a passage are one clause, whatever passages follow. -/
theorem group_words (stop : Position) (passage : Passage) {rest : List (Token Int)}
    (ends : ∀ token, rest.head? = some token → token.lexeme.name? = none) :
    Clause.group stop (passage.words.map unplaced ++ rest) =
      passage.clause?.toList ++ Clause.group stop rest := by
  have single {token : Token Int} {operands : List (Token Int)} {clause : Clause Int}
      (read : Clause.read stop token (operands ++ rest) = (clause, rest)) :
      Clause.group stop (token :: operands ++ rest) = clause :: Clause.group stop rest := by
    rw [List.cons_append, Clause.group, read]
  cases passage with
  | blank => rfl
  | scene name assignments =>
    have members := takeMembers_assignments stop assignments ends
    refine single ?_
    exact congrArg
      (fun items => (Clause.scene Position.start.line (.found name) items.1, items.2)) members
  | play name looped =>
    cases looped with
    | true => exact single rfl
    | false =>
      have loop : Clause.takeLoop rest = (false, rest) := by
        rw [Clause.takeLoop, takeName?_of_head ends]
      refine single ?_
      exact congrArg
        (fun items => (Clause.play Position.start.line (some name) items.1, items.2)) loop
  | _ => exact single rfl

/-- The clauses of passages in a row. -/
theorem group_passages (stop : Position) (passages : List Passage) :
    Clause.group stop ((passages.flatMap words).map unplaced) = passages.filterMap clause? := by
  induction passages with
  | nil => simp [Clause.group]
  | cons passage passages ih =>
    rw [List.flatMap_cons, List.map_append, group_words stop passage (head_words passages), ih,
      List.filterMap_cons]
    cases passage.clause? <;> rfl

/-- The statement of a passage, without its place. -/
def statement? (passage : Passage) : Option Statement := passage.clause?.bind Clause.statement?

/-- No passage lacks an operand. -/
theorem errors_clause? {passage : Passage} {clause : Clause Int}
    (here : passage.clause? = some clause) : clause.errors = [] := by
  cases passage with
  | blank => contradiction
  | scene name assignments =>
    obtain rfl := Option.some.inj here
    rw [Clause.errors, List.flatMap_map]
    exact List.flatMap_eq_nil_iff.mpr fun assignment _ => rfl
  | _ =>
    obtain rfl := Option.some.inj here
    rfl

/-- A passage about which nothing is doubtful: its tempo is in range, its pattern has a character
for each step, its address lies in the audio region. -/
def Quiet : Passage → Prop
  | tempo bpm => tempoMin ≤ bpm ∧ bpm ≤ tempoMax
  | pattern _ text => text.length = stepCount
  | poke address _ => inRegion address = true
  | _ => True

/-- Reading has no warning about a quiet passage. -/
theorem warnings_clause? {passage : Passage} (quiet : passage.Quiet) {clause : Clause Int}
    (here : passage.clause? = some clause) : clause.warnings = [] := by
  cases passage with
  | blank => contradiction
  | tempo bpm =>
    obtain rfl := Option.some.inj here
    exact if_pos quiet
  | pattern name text =>
    obtain rfl := Option.some.inj here
    exact if_pos (.inr quiet)
  | _ =>
    obtain rfl := Option.some.inj here
    rfl

/-- The checks have no warning about a quiet passage. -/
theorem warnings_statement? {passage : Passage} (quiet : passage.Quiet) {statement : Statement}
    (here : passage.statement? = some statement) : statement.warnings = [] := by
  cases passage with
  | blank => contradiction
  | pattern name text =>
    obtain rfl := Option.some.inj here
    exact if_pos quiet
  | poke address value =>
    obtain rfl := Option.some.inj here
    exact if_pos quiet
  | _ =>
    obtain rfl := Option.some.inj here
    rfl

end Passage

namespace Compilation

variable {passages : List Passage}

/-- The text of readable passages is scanned and read without error as their statements, up to the
lines on which these stand. -/
theorem reading_of_passages (readable : ∀ passage ∈ passages, passage.Readable) {source : String}
    (text : source.toList = passages.flatMap fun passage => Passage.textOf passage.lines) :
    (Token.scan source).2 = [] ∧ (reading source).errors = [] ∧
      (reading source).warnings.map (Diagnostic.relocate .forget) =
        (passages.filterMap Passage.clause?).flatMap Clause.warnings ∧
      (programOf source).relocate .forget = ⟨passages.filterMap Passage.statement?⟩ := by
  have spells : Token.Spells source.toList (passages.flatMap Passage.words) := by
    rw [text]
    exact .flatMap fun passage member => Passage.spells_words (readable passage member)
  have inner : ∀ word ∈ passages.flatMap Passage.words, word.isEnd = false := by
    intro word member
    obtain ⟨passage, _, inside⟩ := List.mem_flatMap.mp member
    have none := passage.any_isEnd_words
    rw [List.any_eq_false] at none
    exact Bool.eq_false_iff.mpr (none word inside)
  obtain ⟨closed, ends, content⟩ := Token.scan_of_spells spells inner
  have moved := Parse.ofTokens_relocate .forget ends
  have clauses : Clause.ofTokens ((Token.scan source).1.map (Token.relocate .forget)) =
      passages.filterMap Passage.clause? := by
    rw [Clause.ofTokens, content, Passage.group_passages]
  rw [Parse.ofTokens, clauses, Parse.ofClauses, Parse.mk.injEq] at moved
  obtain ⟨program, errors, warnings⟩ := moved
  refine ⟨closed, ?_, warnings.symm, ?_⟩
  · have none : (passages.filterMap Passage.clause?).flatMap Clause.errors = [] := by
      rw [List.flatMap_eq_nil_iff]
      intro clause member
      obtain ⟨passage, _, here⟩ := List.mem_filterMap.mp member
      exact Passage.errors_clause? here
    rw [none] at errors
    exact List.map_eq_nil_iff.mp errors.symm
  · rw [List.filterMap_filterMap] at program
    exact program.symm

/-- Readable passages without a finding of the checks make a clean source. -/
theorem clean_of_passages (readable : ∀ passage ∈ passages, passage.Readable) {source : String}
    (text : source.toList = passages.flatMap fun passage => Passage.textOf passage.lines)
    (checked : Program.lintErrors ⟨passages.filterMap Passage.statement?⟩ = []) : Clean source := by
  obtain ⟨scanned, parsed, _, program⟩ := reading_of_passages readable text
  have moved := Program.lintErrors_relocate .forget (programOf source)
  rw [program, checked] at moved
  exact ⟨scanned, parsed, List.map_eq_nil_iff.mp moved.symm⟩

/-- The instructions of readable passages are those of their statements. -/
theorem instructions_of_passages (readable : ∀ passage ∈ passages, passage.Readable)
    {source : String}
    (text : source.toList = passages.flatMap fun passage => Passage.textOf passage.lines)
    (clearRests : Bool) :
    (programOf source).instructions clearRests =
      Program.instructions ⟨passages.filterMap Passage.statement?⟩ clearRests := by
  obtain ⟨_, _, _, program⟩ := reading_of_passages readable text
  rw [← program, Program.instructions_relocate]

/-- Quiet passages compile without a warning. -/
theorem warnings_of_passages (readable : ∀ passage ∈ passages, passage.Readable)
    (quiet : ∀ passage ∈ passages, passage.Quiet) {source : String}
    (text : source.toList = passages.flatMap fun passage => Passage.textOf passage.lines) :
    warningsOf source = [] := by
  obtain ⟨_, _, warnings, program⟩ := reading_of_passages readable text
  have clauses : (passages.filterMap Passage.clause?).flatMap Clause.warnings = [] := by
    rw [List.flatMap_eq_nil_iff]
    intro clause member
    obtain ⟨passage, known, here⟩ := List.mem_filterMap.mp member
    exact Passage.warnings_clause? (quiet passage known) here
  have statements : Program.lintWarnings ⟨passages.filterMap Passage.statement?⟩ = [] := by
    rw [Program.lintWarnings, List.flatMap_eq_nil_iff]
    intro statement member
    obtain ⟨passage, known, here⟩ := List.mem_filterMap.mp member
    exact Passage.warnings_statement? (quiet passage known) here
  have checks := Program.lintWarnings_relocate .forget (programOf source)
  rw [clauses, List.map_eq_nil_iff] at warnings
  rw [program, statements] at checks
  rw [warningsOf, warnings, List.map_eq_nil_iff.mp checks.symm]
  rfl

end Compilation

end StepSequencer
