import StepSequencer.Clause.Meaning

/-!
# Moving tokens

How tokens group into clauses, and what the clauses mean, does not depend on where the tokens stand.
A relocation moves every position; the clauses of moved tokens are the moved clauses of the tokens,
and errors and warnings move along. `Relocation.forget` moves everything to one place, so that two
token lists with the same lexemes have the same clauses up to their places.
-/
namespace StepSequencer

/-- A way to move positions, and lines along with them. -/
structure Relocation where
  place : Position → Position
  line : Int → Int
  line_place : ∀ position, (place position).line = line position.line

/-- Everything moves to the start. -/
def Relocation.forget : Relocation where
  place _ := .start
  line _ := Position.start.line
  line_place _ := rfl

variable {ν α : Type} (move : Relocation)

/-- A token in its new place. -/
def Token.relocate (token : Token ν) : Token ν := ⟨token.lexeme, move.place token.place⟩

/-- An operand whose missing is noted at its new place. -/
def Slot.relocate : Slot α → Slot α
  | found value => found value
  | missed operand place => missed operand (move.place place)

/-- An item of a scene in its new place. -/
def Member.relocate : Member → Member
  | assign voice pattern => assign voice (pattern.relocate move)
  | bare name => bare name

/-- A clause in its new place. -/
def Clause.relocate : Clause ν → Clause ν
  | comment line text => comment (move.line line) text
  | title line text => title (move.line line) (text.relocate move)
  | tempo line value => tempo (move.line line) (value.relocate move)
  | swing line value => swing (move.line line) (value.relocate move)
  | pattern line name text => pattern (move.line line) (name.relocate move) (text.relocate move)
  | scene line name members =>
    scene (move.line line) (name.relocate move) (members.map (Member.relocate move))
  | play line name looped => play (move.line line) name looped
  | stop line => stop (move.line line)
  | param line target value => param (move.line line) (target.relocate move) (value.relocate move)
  | poke line address value => poke (move.line line) (address.relocate move) (value.relocate move)
  | loop line count => loop (move.line line) (count.relocate move)
  | wait line steps => wait (move.line line) (steps.relocate move)
  | assign line voice name => assign (move.line line) voice (name.relocate move)
  | unknown name place => unknown name (move.place place)
  | bare name place => bare name (move.place place)
  | stray place => stray (move.place place)

/-- A finding at its new place. -/
def Diagnostic.relocate (diagnostic : Diagnostic) : Diagnostic :=
  match diagnostic.line, diagnostic.col with
  | some line, some col =>
    { diagnostic with
      line := some (move.place ⟨line, col⟩).line, col := some (move.place ⟨line, col⟩).col }
  | some line, none => { diagnostic with line := some (move.line line) }
  | none, _ => diagnostic

/-- A diagnostic at a position moves with it. -/
@[simp] theorem Diagnostic.relocate_atPosition (problem : Problem) (place : Position) :
    (atPosition problem place).relocate move = atPosition problem (move.place place) := rfl

namespace Clause

/-- An operand of tokens that moved is the same operand, moved. -/
theorem take_relocate (accept : Lexeme ν → Option α) (operand : Operand) (stop : Position)
    (tokens : List (Token ν)) :
    take accept operand (move.place stop) (tokens.map (Token.relocate move)) =
      Prod.map (Slot.relocate move) (List.map (Token.relocate move))
        (take accept operand stop tokens) := by
  cases tokens with
  | nil => rfl
  | cons token rest =>
    simp only [List.map_cons, take, Token.relocate]
    cases accept token.lexeme <;> rfl

/-- A name that may be absent is the same in tokens that moved. -/
theorem takeName?_relocate (tokens : List (Token ν)) :
    takeName? (tokens.map (Token.relocate move)) =
      Prod.map id (List.map (Token.relocate move)) (takeName? tokens) := by
  cases tokens with
  | nil => rfl
  | cons token rest =>
    simp only [List.map_cons, takeName?, Token.relocate]
    cases token.lexeme.name? <;> rfl

/-- Whether a colon is next does not depend on places. -/
@[simp] theorem colonNext_relocate (tokens : List (Token ν)) :
    colonNext (tokens.map (Token.relocate move)) = colonNext tokens := by
  cases tokens <;> rfl

/-- The items of a scene in tokens that moved are the same items, moved. -/
theorem takeMembers_relocate (stop : Position) (tokens : List (Token ν)) :
    takeMembers (move.place stop) (tokens.map (Token.relocate move)) =
      Prod.map (List.map (Member.relocate move)) (List.map (Token.relocate move))
        (takeMembers stop tokens) := by
  fun_induction takeMembers stop tokens with
  | case1 => simp [takeMembers]
  | case2 token rest unnamed =>
    rw [List.map_cons, takeMembers]
    simp only [Token.relocate, unnamed]
    rfl
  | case3 token rest name named colon pattern more ih =>
    have operand := take_relocate move Lexeme.name? .patternName stop (rest.drop 1)
    rw [List.map_drop] at operand
    rw [List.map_cons, takeMembers]
    simp only [Token.relocate, named, colonNext_relocate, colon, if_true, operand]
    exact congrArg (fun items => (.assign name (pattern.1.relocate move) :: items.1, items.2)) ih
  | case4 token rest name named colon more ih =>
    rw [List.map_cons, takeMembers]
    simp only [Token.relocate, named, colonNext_relocate, colon]
    exact congrArg (fun items => (.bare name :: items.1, items.2)) ih

/-- The second part of a name is the same in tokens that moved. -/
theorem takeSecondName_relocate (tokens : List (Token ν)) :
    takeSecondName (tokens.map (Token.relocate move)) =
      Prod.map id (List.map (Token.relocate move)) (takeSecondName tokens) := by
  rw [takeSecondName, ← List.map_drop, colonNext_relocate, takeSecondName]
  split
  · rfl
  · exact takeName?_relocate move tokens

/-- The target of a parameter in tokens that moved is the same target, moved. -/
theorem takeTarget_relocate (stop : Position) (tokens : List (Token ν)) :
    takeTarget (move.place stop) (tokens.map (Token.relocate move)) =
      Prod.map (Slot.relocate move) (List.map (Token.relocate move)) (takeTarget stop tokens) := by
  rw [takeTarget, take_relocate, takeTarget]
  cases take Lexeme.name? .paramTarget stop tokens with
  | mk target rest =>
    cases target with
    | found name =>
      simp only [Prod.map_apply, Slot.relocate, takeSecondName_relocate]
      rfl
    | missed operand place => rfl

/-- The word for a loop is taken alike from tokens that moved. -/
theorem takeLoop_relocate (tokens : List (Token ν)) :
    takeLoop (tokens.map (Token.relocate move)) =
      Prod.map id (List.map (Token.relocate move)) (takeLoop tokens) := by
  rw [takeLoop, takeName?_relocate, takeLoop]
  cases takeName? tokens with
  | mk name rest =>
    by_cases named : name = some "loop"
    · subst named
      rfl
    · split
      · next found => exact absurd (congrArg Prod.fst found) named
      · split
        · next found => exact absurd (congrArg Prod.fst found) named
        · rfl

/-- The clause of a directive among tokens that moved is the same clause, moved. -/
theorem ofDirective_relocate (stop : Position) (line : Int) (tokens : List (Token ν))
    (directive : Directive) :
    ofDirective (move.place stop) (move.line line) (tokens.map (Token.relocate move)) directive =
      Prod.map (Clause.relocate move) (List.map (Token.relocate move))
        (ofDirective stop line tokens directive) := by
  cases directive <;>
    simp only [ofDirective, take_relocate, takeName?_relocate, takeMembers_relocate,
      takeTarget_relocate, takeLoop_relocate, Prod.map_apply, Prod.map_fst, Prod.map_snd,
      Clause.relocate, id_eq]

/-- The clause that starts with a moved token is the moved clause. -/
theorem read_relocate (stop : Position) (token : Token ν) (rest : List (Token ν)) :
    read (move.place stop) (token.relocate move) (rest.map (Token.relocate move)) =
      Prod.map (Clause.relocate move) (List.map (Token.relocate move)) (read stop token rest) := by
  obtain ⟨lexeme, place⟩ := token
  cases lexeme with
  | directive name =>
    simp only [read, Token.relocate, move.line_place]
    cases Directive.ofName? name with
    | some directive => exact ofDirective_relocate move stop place.line rest directive
    | none => rfl
  | identifier name =>
    simp only [read, Token.relocate, colonNext_relocate, move.line_place]
    split
    · rw [← List.map_drop, take_relocate]
      rfl
    · rfl
  | comment text =>
    simp only [read, Token.relocate, move.line_place]
    rfl
  | _ => rfl

/-- The clauses of moved tokens are the moved clauses. -/
theorem group_relocate (stop : Position) (tokens : List (Token ν)) :
    group (move.place stop) (tokens.map (Token.relocate move)) =
      (group stop tokens).map (Clause.relocate move) := by
  fun_induction group stop tokens with
  | case1 => simp [group]
  | case2 token rest clause ih =>
    rw [List.map_cons, group, read_relocate]
    exact congrArg (List.cons (clause.1.relocate move)) ih

/-- Tokens that moved are stripped like the tokens. -/
theorem content_relocate (tokens : List (Token ν)) :
    content (tokens.map (Token.relocate move)) =
      (content tokens).map (Token.relocate move) := by
  rw [content, List.filter_map, List.takeWhile_map]
  rfl

/-- An end of input among tokens is found. -/
theorem find?_isEnd {tokens : List (Token ν)}
    (ends : ∃ token ∈ tokens, token.lexeme.isEnd = true) :
    ∃ last, (tokens.filter fun token => !token.lexeme.isNewline).find?
      (fun token => token.lexeme.isEnd) = some last := by
  obtain ⟨last, member, isEnd⟩ := ends
  have seen : last ∈ tokens.filter fun token => !token.lexeme.isNewline := by
    rw [List.mem_filter]
    refine ⟨member, ?_⟩
    obtain ⟨lexeme, place⟩ := last
    cases lexeme <;> first | contradiction | rfl
  rw [← Option.isSome_iff_exists, List.find?_isSome]
  exact ⟨last, seen, isEnd⟩

/-- The end of the input moves with its token. -/
theorem endPlace_relocate {tokens : List (Token ν)}
    (ends : ∃ token ∈ tokens, token.lexeme.isEnd = true) :
    endPlace (tokens.map (Token.relocate move)) = move.place (endPlace tokens) := by
  obtain ⟨last, found⟩ := find?_isEnd ends
  rw [endPlace, List.filter_map, List.find?_map, endPlace]
  simp only [Function.comp_def, Token.relocate, found, Option.map_some]

/-- The clauses of a moved token list are the moved clauses. -/
theorem ofTokens_relocate {tokens : List (Token ν)}
    (ends : ∃ token ∈ tokens, token.lexeme.isEnd = true) :
    ofTokens (tokens.map (Token.relocate move)) =
      (ofTokens tokens).map (Clause.relocate move) := by
  rw [ofTokens, endPlace_relocate move ends, content_relocate, group_relocate, ofTokens]

end Clause

/-- An operand that moved, or what is put in for it, is the same. -/
@[simp] theorem Slot.getD_relocate (slot : Slot α) (default : α) :
    (slot.relocate move).getD default = slot.getD default := by
  cases slot <;> rfl

/-- An operand that moved is the same. -/
@[simp] theorem Slot.get?_relocate (slot : Slot α) : (slot.relocate move).get? = slot.get? := by
  cases slot <;> rfl

/-- The error of an operand moves with it. -/
@[simp] theorem Slot.errors_relocate (slot : Slot α) :
    (slot.relocate move).errors = slot.errors.map (Diagnostic.relocate move) := by
  cases slot <;> rfl

/-- The errors of an item of a scene move with it. -/
@[simp] theorem Member.errors_relocate (member : Member) :
    (member.relocate move).errors = member.errors.map (Diagnostic.relocate move) := by
  cases member with
  | assign voice pattern => exact Slot.errors_relocate move pattern
  | bare name => rfl

/-- An item of a scene that moved is the same assignment. -/
@[simp] theorem Member.assignment?_relocate (member : Member) :
    (member.relocate move).assignment? = member.assignment? := by
  cases member with
  | assign voice pattern => rw [relocate, assignment?, Slot.get?_relocate, assignment?]
  | bare name => rfl

namespace Clause

/-- The errors of a moved clause. -/
theorem errors_relocate (clause : Clause ν) :
    (clause.relocate move).errors = clause.errors.map (Diagnostic.relocate move) := by
  cases clause <;>
    simp only [relocate, errors, Slot.errors_relocate, List.map_append, List.map_nil,
      List.map_cons, Diagnostic.relocate_atPosition, List.flatMap_map, Member.errors_relocate,
      List.map_flatMap]

/-- The warnings of a moved clause. -/
theorem warnings_relocate (clause : Clause Int) :
    (clause.relocate move).warnings = clause.warnings.map (Diagnostic.relocate move) := by
  cases clause <;> simp only [relocate, warnings, Slot.getD_relocate, List.map_nil]
  all_goals split <;> rfl

end Clause

end StepSequencer
