import Mathlib.Data.List.Basic
import Mathlib.Data.List.TakeWhile
import StepSequencer.Proofs.Clause.Boundary

/-!
# Recovery from errors

A missing operand is reported and nothing is skipped for it, so what stands behind a faulty clause
is read as if the clause were sound. A token list is read in front of a directive or a comment as it
is read alone, but for the place of what is missing at its end. Each directive gives one statement
on its line if its name is known, and otherwise one error and no statement.
-/
namespace StepSequencer

/-! ### Openers survive -/

namespace Clause

section Openers

variable {ν α : Type} (stop : Position) (tokens : List (Token ν))

/-- The tokens that open a clause wherever they stand. -/
def openers (tokens : List (Token ν)) : List (Token ν) :=
  tokens.filter fun token => token.lexeme.opensClause

/-- A token that opens no clause adds no opener. -/
theorem openers_cons_of_not {token : Token ν} (closed : token.lexeme.opensClause ≠ true)
    (rest : List (Token ν)) : openers (token :: rest) = openers rest :=
  List.filter_cons_of_neg closed

/-- An operand opens no clause if no opener is accepted as one. -/
theorem opensClause_ne_of_some {accept : Lexeme ν → Option α}
    (rejects : ∀ lexeme : Lexeme ν, lexeme.opensClause = true → accept lexeme = none)
    {lexeme : Lexeme ν} {value : α} (found : accept lexeme = some value) :
    lexeme.opensClause ≠ true := by
  intro opens
  have missed := rejects lexeme opens
  rw [found] at missed
  contradiction

/-- Taking an operand leaves all openers. -/
theorem openers_take {accept : Lexeme ν → Option α}
    (rejects : ∀ lexeme : Lexeme ν, lexeme.opensClause = true → accept lexeme = none)
    (operand : Operand) : openers (take accept operand stop tokens).2 = openers tokens := by
  cases tokens with
  | nil => rfl
  | cons token rest =>
    simp only [take]
    cases found : accept token.lexeme with
    | some value => exact (openers_cons_of_not (opensClause_ne_of_some rejects found) rest).symm
    | none => rfl

/-- Taking a name that may be absent leaves all openers. -/
theorem openers_takeName? : openers (takeName? tokens).2 = openers tokens := by
  cases tokens with
  | nil => rfl
  | cons token rest =>
    simp only [takeName?]
    cases found : token.lexeme.name? with
    | some name =>
      have closed := opensClause_ne_of_some (fun _ => Lexeme.name?_of_opensClause) found
      exact (openers_cons_of_not closed rest).symm
    | none => rfl

/-- A colon opens no clause. -/
theorem openers_drop {tokens : List (Token ν)} (colon : colonNext tokens = true) :
    openers (tokens.drop 1) = openers tokens := by
  cases tokens with
  | nil => rfl
  | cons token rest =>
    refine (openers_cons_of_not (fun opens => ?_) rest).symm
    have other := Lexeme.isColon_of_opensClause opens
    rw [show token.lexeme.isColon = true from colon] at other
    contradiction

/-- Taking the items of a scene leaves all openers. -/
theorem openers_takeMembers : openers (takeMembers stop tokens).2 = openers tokens := by
  fun_induction takeMembers stop tokens with
  | case1 => rfl
  | case2 token rest unnamed => rfl
  | case3 token rest name named colon pattern more ih =>
    have closed := opensClause_ne_of_some (fun _ => Lexeme.name?_of_opensClause) named
    calc openers more.2 = openers pattern.2 := ih
      _ = openers (rest.drop 1) :=
        openers_take stop _ (fun _ => Lexeme.name?_of_opensClause) .patternName
      _ = openers rest := openers_drop colon
      _ = openers (token :: rest) := (openers_cons_of_not closed rest).symm
  | case4 token rest name named colon more ih =>
    have closed := opensClause_ne_of_some (fun _ => Lexeme.name?_of_opensClause) named
    exact ih.trans (openers_cons_of_not closed rest).symm

/-- Taking the target of a parameter leaves all openers. -/
theorem openers_takeTarget : openers (takeTarget stop tokens).2 = openers tokens := by
  have first := openers_take stop tokens (fun _ => Lexeme.name?_of_opensClause) .paramTarget
  rw [takeTarget]
  split
  · next name rest found =>
    rw [found] at first
    refine Eq.trans ?_ first
    simp only [takeSecondName]
    split
    · rfl
    · exact openers_takeName? rest
  · next operand place rest found =>
    rw [found] at first
    exact first

/-- Taking the word for a loop leaves all openers. -/
theorem openers_takeLoop : openers (takeLoop tokens).2 = openers tokens := by
  have first := openers_takeName? tokens
  rw [takeLoop]
  split
  · next rest found =>
    rw [found] at first
    exact first
  · rfl

/-- Reading behind a directive leaves all openers, so that each opens a clause of its own. -/
theorem openers_ofDirective (line : Int) (directive : Directive) :
    openers (ofDirective stop line tokens directive).2 = openers tokens := by
  cases directive <;>
    simp only [ofDirective, openers_takeMembers, openers_takeLoop, openers_takeName?,
      openers_takeTarget, openers_take stop _ (fun _ => Lexeme.name?_of_opensClause),
      openers_take stop _ (fun _ => Lexeme.text?_of_opensClause),
      openers_take stop _ (fun _ => Lexeme.number?_of_opensClause)]

/-- A clause takes no opener but its first token. -/
theorem openers_read (token : Token ν) :
    openers (read stop token tokens).2 = openers tokens := by
  obtain ⟨lexeme, place⟩ := token
  cases lexeme with
  | directive name =>
    simp only [read]
    cases Directive.ofName? name with
    | some directive => exact openers_ofDirective stop tokens place.line directive
    | none => rfl
  | identifier name =>
    simp only [read]
    split
    · next colon =>
      refine Eq.trans ?_ (openers_drop colon)
      exact openers_take stop _ (fun _ => Lexeme.name?_of_opensClause) .patternName
    · rfl
  | _ => rfl

end Openers

end Clause

/-! ### What becomes of a directive -/

/-- The directive of a statement, with its line. -/
def Statement.directive? : Statement → Option (Directive × Int)
  | comment _ _ | assign _ _ => none
  | title line _ => some (.title, line)
  | tempo line _ => some (.tempo, line)
  | swing line _ => some (.swing, line)
  | pattern definition => some (.pattern, definition.line)
  | scene definition => some (.scene, definition.line)
  | play line _ _ => some (.play, line)
  | stop line => some (.stop, line)
  | param line _ _ _ => some (.param, line)
  | poke line _ _ => some (.poke, line)
  | loop line _ => some (.loop, line)
  | wait line _ => some (.wait, line)

/-- The known directive of a token, with its line. -/
def Token.directive? (token : Token Int) : Option (Directive × Int) :=
  match token.lexeme with
  | .directive name => (Directive.ofName? name).map fun directive => (directive, token.place.line)
  | _ => none

/-- The error of a token that is a directive with an unknown name. -/
def Token.unknownDirective? (token : Token Int) : Option Diagnostic :=
  match token.lexeme with
  | .directive name =>
    if (Directive.ofName? name).isSome then none
    else some (.atPosition (.unknownDirective name) token.place)
  | _ => none

/-- Whether a finding is about the name of a directive. -/
def Diagnostic.isUnknownDirective (diagnostic : Diagnostic) : Bool :=
  match diagnostic.problem with
  | .unknownDirective _ => true
  | _ => false

/-- The error of an operand is not that of an unknown directive. -/
theorem Slot.errors_known {α : Type} (slot : Slot α) :
    slot.errors.filter Diagnostic.isUnknownDirective = [] := by
  cases slot <;> rfl

/-- The errors of a scene are not those of unknown directives. -/
theorem Member.errors_known (members : List Member) :
    (members.flatMap errors).filter Diagnostic.isUnknownDirective = [] := by
  rw [List.filter_flatMap]
  refine List.flatMap_eq_nil_iff.2 fun member _ => ?_
  cases member with
  | assign voice pattern => exact pattern.errors_known
  | bare name => rfl

namespace Clause

/-- Only the clause of an unknown directive says that it is unknown. -/
theorem errors_known {clause : Clause Int} (known : ∀ name place, clause ≠ .unknown name place) :
    clause.errors.filter Diagnostic.isUnknownDirective = [] := by
  cases clause with
  | unknown name place => exact absurd rfl (known name place)
  | _ => simp [errors, Slot.errors_known, Member.errors_known]

/-- A known directive means a statement of its own kind and line, whatever follows it. -/
theorem ofDirective_directive (stop : Position) (line : Int) (tokens : List (Token Int))
    (directive : Directive) :
    (ofDirective stop line tokens directive).1.statement?.bind Statement.directive? =
      some (directive, line) := by
  cases directive <;> rfl

/-- A known directive is not reported as unknown. -/
theorem ofDirective_known (stop : Position) (line : Int) (tokens : List (Token Int))
    (directive : Directive) (name : String) (place : Position) :
    (ofDirective stop line tokens directive).1 ≠ .unknown name place := by
  cases directive <;> simp [ofDirective]

/-- A clause is the statement of a directive only if that is its first token. -/
theorem read_directive (stop : Position) (token : Token Int) (tokens : List (Token Int)) :
    (read stop token tokens).1.statement?.bind Statement.directive? = token.directive? := by
  obtain ⟨lexeme, place⟩ := token
  cases lexeme with
  | directive name =>
    simp only [read, Token.directive?]
    cases Directive.ofName? name with
    | some directive => exact ofDirective_directive stop place.line tokens directive
    | none => rfl
  | identifier name =>
    simp only [read]
    split <;> rfl
  | _ => rfl

/-- A clause says that a directive is unknown only if that is its first token. -/
theorem read_unknownDirective (stop : Position) (token : Token Int) (tokens : List (Token Int)) :
    (read stop token tokens).1.errors.filter Diagnostic.isUnknownDirective =
      token.unknownDirective?.toList := by
  obtain ⟨lexeme, place⟩ := token
  cases lexeme with
  | directive name =>
    simp only [read, Token.unknownDirective?]
    cases Directive.ofName? name with
    | some directive => exact errors_known (ofDirective_known stop place.line tokens directive)
    | none => rfl
  | identifier name =>
    refine errors_known fun other place => ?_
    simp only [read]
    split <;> simp
  | _ => rfl

/-- What is picked from openers alone is picked from all tokens. -/
theorem filterMap_openers {β : Type} {pick : Token Int → Option β}
    (ignores : ∀ token : Token Int, token.lexeme.opensClause ≠ true → pick token = none)
    (tokens : List (Token Int)) : (openers tokens).filterMap pick = tokens.filterMap pick := by
  rw [openers, List.filterMap_filter]
  congr 1
  funext token
  split
  · rfl
  · next closed => exact (ignores token closed).symm

/-- What a clause owes to its first token, if that opens it, all clauses owe to the openers. -/
theorem flatMap_group {β : Type} {pick : Token Int → Option β} {yields : Clause Int → List β}
    (ignores : ∀ token : Token Int, token.lexeme.opensClause ≠ true → pick token = none)
    (first : ∀ stop token rest, yields (read stop token rest).1 = (pick token).toList)
    (stop : Position) (tokens : List (Token Int)) :
    (group stop tokens).flatMap yields = tokens.filterMap pick := by
  fun_induction group stop tokens with
  | case1 => rfl
  | case2 token rest clause ih =>
    have left : clause.2.filterMap pick = rest.filterMap pick := by
      rw [← filterMap_openers ignores clause.2, openers_read, filterMap_openers ignores]
    rw [List.flatMap_cons, ih, left, first, List.filterMap_cons]
    cases pick token <;> rfl

/-- Only an opener is a known directive. -/
theorem directive?_of_not_opensClause (token : Token Int)
    (closed : token.lexeme.opensClause ≠ true) : token.directive? = none := by
  obtain ⟨lexeme, place⟩ := token
  cases lexeme <;> first | rfl | exact absurd rfl closed

/-- Only an opener is an unknown directive. -/
theorem unknownDirective?_of_not_opensClause (token : Token Int)
    (closed : token.lexeme.opensClause ≠ true) : token.unknownDirective? = none := by
  obtain ⟨lexeme, place⟩ := token
  cases lexeme <;> first | rfl | exact absurd rfl closed

/-- The statements of known directives are those of the tokens, in their order. -/
theorem group_directives (stop : Position) (tokens : List (Token Int)) :
    ((group stop tokens).filterMap statement?).filterMap Statement.directive? =
      tokens.filterMap Token.directive? := by
  rw [List.filterMap_filterMap, List.filterMap_eq_flatMap_toList]
  exact flatMap_group directive?_of_not_opensClause
    (fun stop token rest => congrArg Option.toList (read_directive stop token rest)) stop tokens

/-- The errors of unknown directives are those of the tokens, in their order. -/
theorem group_unknownDirectives (stop : Position) (tokens : List (Token Int)) :
    ((group stop tokens).flatMap errors).filter Diagnostic.isUnknownDirective =
      tokens.filterMap Token.unknownDirective? := by
  rw [List.filter_flatMap]
  exact flatMap_group unknownDirective?_of_not_opensClause read_unknownDirective stop tokens

/-! ### Pieces of a token list -/

/-- What tokens other than line feeds give is given by the tokens before the end of input. -/
theorem filterMap_content {α : Type} {part : Token Int → Option α}
    (quiet : ∀ place, part ⟨.newline, place⟩ = none) (tokens : List (Token Int)) :
    (content tokens).filterMap part =
      (tokens.takeWhile fun token => token.lexeme ≠ .endOfInput).filterMap part := by
  induction tokens with
  | nil => rfl
  | cons token tokens ih =>
    obtain ⟨lexeme, place⟩ := token
    cases lexeme with
    | newline =>
      rw [List.takeWhile_cons_of_pos (by simp), List.filterMap_cons_none (quiet place), ← ih]
      rfl
    | endOfInput => rfl
    | _ =>
      rw [List.takeWhile_cons_of_pos (by simp), List.filterMap_cons, ← ih, ← List.filterMap_cons]
      rfl

section Pieces

variable {tokens : List (Token Int)}

/-- Two runs of tokens are stripped one by one if the first does not hold the end of the input. -/
theorem content_append (unended : ∀ token ∈ tokens, token.lexeme.isEnd = false)
    (rest : List (Token Int)) : content (tokens ++ rest) = content tokens ++ content rest := by
  have seen : ∀ token ∈ tokens.filter fun token => !token.lexeme.isNewline,
      (!token.lexeme.isEnd) = true := by
    intro token member
    rw [unended token (List.mem_of_mem_filter member)]
    rfl
  rw [content, List.filter_append, List.takeWhile_append_of_pos seen]
  exact congrArg (· ++ content rest) (List.takeWhile_eq_self_iff.2 seen).symm

/-- What opens a clause is no end of a line. -/
theorem isNewline_of_opensClause {first : Token Int} (opens : first.lexeme.opensClause = true) :
    first.lexeme.isNewline = false := by
  obtain ⟨lexeme, place⟩ := first
  cases lexeme <;> first | rfl | contradiction

/-- What opens a clause is not the end of the input. -/
theorem isEnd_of_opensClause {first : Token Int} (opens : first.lexeme.opensClause = true) :
    first.lexeme.isEnd = false := by
  obtain ⟨lexeme, place⟩ := first
  cases lexeme <;> first | rfl | contradiction

/-- An opener is not stripped. -/
theorem content_opener {first : Token Int} (opens : first.lexeme.opensClause = true)
    (rest : List (Token Int)) : content (first :: rest) = first :: content rest := by
  simp [content, isNewline_of_opensClause opens, isEnd_of_opensClause opens]

/-- Stripping tokens without an end of the input leaves them without one. -/
theorem find?_unended (unended : ∀ token ∈ tokens, token.lexeme.isEnd = false) :
    (tokens.filter fun token => !token.lexeme.isNewline).find? (fun token => token.lexeme.isEnd) =
      none := by
  rw [List.find?_eq_none]
  intro token member
  rw [unended token (List.mem_of_mem_filter member)]
  exact Bool.false_ne_true

/-- Tokens in front of an opener end where the opener and what follows it end. -/
theorem endPlace_append (unended : ∀ token ∈ tokens, token.lexeme.isEnd = false)
    {first : Token Int} (opens : first.lexeme.opensClause = true) (rest : List (Token Int)) :
    endPlace (tokens ++ first :: rest) = endPlace (first :: rest) := by
  simp only [endPlace, List.filter_append, List.find?_append, find?_unended unended,
    Option.none_or, List.filter_cons, isNewline_of_opensClause opens, Bool.not_false, if_true,
    List.getLast?_append, List.getLast?_cons, Option.some_or]

/-- Tokens end at the end of the input. -/
theorem endPlace_ended (unended : ∀ token ∈ tokens, token.lexeme.isEnd = false)
    (stop : Position) : endPlace (tokens ++ [⟨.endOfInput, stop⟩]) = stop := by
  simp only [endPlace, List.filter_append, List.find?_append, find?_unended unended,
    Option.none_or]
  rfl

end Pieces

/-- The clauses of tokens in front of an opener are read as if the tokens ended there. -/
theorem ofTokens_append {tokens : List (Token Int)}
    (unended : ∀ token ∈ tokens, token.lexeme.isEnd = false)
    {first : Token Int} (opens : first.lexeme.opensClause = true) (rest : List (Token Int)) :
    ofTokens (tokens ++ first :: rest) =
      group first.place (content tokens) ++ ofTokens (first :: rest) := by
  rw [ofTokens, endPlace_append unended opens, content_append unended,
    content_opener opens, group_before opens, ofTokens,
    content_opener opens]

end Clause

namespace Parse

/-- The clauses of a program are those of its tokens up to the end of the input. -/
theorem ofTokens_ended {tokens : List (Token Int)}
    (unended : ∀ token ∈ tokens, token.lexeme.isEnd = false) (stop : Position) :
    ofTokens (tokens ++ [⟨.endOfInput, stop⟩]) =
      ofClauses (Clause.group stop (Clause.content tokens)) := by
  rw [ofTokens, Clause.ofTokens, Clause.endPlace_ended unended, Clause.content_append unended]
  exact congrArg (fun content => ofClauses (Clause.group stop content)) (List.append_nil _)

/-- Faulty or not, tokens do not change how a directive or a comment behind them is read. The
statements and the warnings of the whole are those of the tokens and then those of what follows. So
are the errors, except that what the tokens lack at their end is reported at the token that follows
them. Each directive before the end of input has a statement on its line if its name is known, and
otherwise an error and no statement; the statements and the errors come in the order of the
directives. -/
theorem recovers_at_opener {tokens : List (Token Int)} {first : Token Int}
    (rest : List (Token Int)) (unended : ∀ token ∈ tokens, token.lexeme.isEnd = false)
    (opens : first.lexeme.opensClause = true) :
    let all := tokens ++ first :: rest
    (ofTokens all).program.body =
      (ofTokens tokens).program.body ++ (ofTokens (first :: rest)).program.body ∧
    (ofTokens all).warnings = (ofTokens tokens).warnings ++ (ofTokens (first :: rest)).warnings ∧
    (∃ findings : List Finding,
      (∀ stop, (ofTokens (tokens ++ [⟨.endOfInput, stop⟩])).errors =
        findings.map (Finding.settle stop)) ∧
      (ofTokens tokens).errors = findings.map (Finding.settle (Clause.endPlace tokens)) ∧
      (ofTokens all).errors =
        findings.map (Finding.settle first.place) ++ (ofTokens (first :: rest)).errors) ∧
    (ofTokens all).program.body.filterMap Statement.directive? =
      (all.takeWhile fun token => token.lexeme ≠ .endOfInput).filterMap Token.directive? ∧
    (ofTokens all).errors.filter Diagnostic.isUnknownDirective =
      (all.takeWhile fun token => token.lexeme ≠ .endOfInput).filterMap
        Token.unknownDirective? := by
  intro all
  have pieces := Clause.ofTokens_append unended opens rest
  obtain ⟨findings, settles⟩ := Clause.group_settles (Clause.content tokens)
  have here := settles first.place
  have alone := settles (Clause.endPlace tokens)
  refine ⟨?_, ?_, ⟨findings, fun stop => ?_, alone.errors, ?_⟩, ?_, ?_⟩
  · calc (Clause.ofTokens all).filterMap Clause.statement?
        = (Clause.group first.place (Clause.content tokens)).filterMap Clause.statement? ++
            (Clause.ofTokens (first :: rest)).filterMap Clause.statement? := by
          rw [pieces, List.filterMap_append]
      _ = _ := by rw [here.body, ← alone.body]; rfl
  · calc (Clause.ofTokens all).flatMap Clause.warnings
        = (Clause.group first.place (Clause.content tokens)).flatMap Clause.warnings ++
            (Clause.ofTokens (first :: rest)).flatMap Clause.warnings := by
          rw [pieces, List.flatMap_append]
      _ = _ := by rw [here.warnings, ← alone.warnings]; rfl
  · rw [ofTokens_ended unended]
    exact (settles stop).errors
  · calc (Clause.ofTokens all).flatMap Clause.errors
        = (Clause.group first.place (Clause.content tokens)).flatMap Clause.errors ++
            (Clause.ofTokens (first :: rest)).flatMap Clause.errors := by
          rw [pieces, List.flatMap_append]
      _ = _ := by rw [here.errors]; rfl
  · rw [← Clause.filterMap_content fun _ => rfl]
    exact Clause.group_directives _ _
  · rw [← Clause.filterMap_content fun _ => rfl]
    exact Clause.group_unknownDirectives _ _

/-- A scene lacks the name of a pattern where an unknown directive stands. Both are reported there,
and the statement behind them is read. -/
theorem recovers_at_opener_unfinished_scene :
    let tokens : List (Token Int) := [⟨.directive "scene", ⟨1, 1⟩⟩, ⟨.identifier "s", ⟨1, 8⟩⟩,
      ⟨.newline, ⟨1, 9⟩⟩, ⟨.identifier "kick", ⟨2, 1⟩⟩, ⟨.colon, ⟨2, 5⟩⟩, ⟨.newline, ⟨2, 6⟩⟩]
    let first : Token Int := ⟨.directive "temp", ⟨3, 1⟩⟩
    let rest : List (Token Int) := [⟨.number 90, ⟨3, 7⟩⟩, ⟨.newline, ⟨3, 9⟩⟩,
      ⟨.directive "stop", ⟨4, 1⟩⟩, ⟨.endOfInput, ⟨4, 6⟩⟩]
    (∀ token ∈ tokens, token.lexeme.isEnd = false) ∧ first.lexeme.opensClause = true ∧
      (ofTokens (tokens ++ first :: rest)).program.body =
        [.scene ⟨"s", [⟨"kick", none⟩], 1⟩, .stop 4] ∧
      (ofTokens (tokens ++ first :: rest)).errors =
        [.atPosition (.expected .patternName) ⟨3, 1⟩,
          .atPosition (.unknownDirective "temp") ⟨3, 1⟩] := by
  intro tokens first rest
  have unended : ∀ token ∈ tokens, token.lexeme.isEnd = false := by decide
  have opens : first.lexeme.opensClause = true := rfl
  obtain ⟨body, -, ⟨findings, settles, -, errors⟩, -⟩ := recovers_at_opener rest unended opens
  refine ⟨unended, opens, body.trans (by decide +kernel), errors.trans ?_⟩
  rw [← settles]
  decide +kernel

end Parse

end StepSequencer
