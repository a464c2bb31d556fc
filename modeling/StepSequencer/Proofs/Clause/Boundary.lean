import StepSequencer.Clause.Meaning

/-!
# Clauses do not reach over the next one

A directive and a comment open a clause wherever they stand, because no operand is one. Whatever is
missing before them, they are not taken for it: the clauses of tokens in front of such an opener are
read as if the tokens ended there, and reading starts anew with the opener. Where the tokens end
matters only for the place at which a missing operand is reported. So a program is read piece by
piece, and each directive has its own statement or its own error.
-/
namespace StepSequencer

/-- Whether a lexeme opens a clause wherever it stands. -/
def Lexeme.opensClause {ν : Type} : Lexeme ν → Bool
  | directive _ => true
  | comment _ => true
  | _ => false

namespace Lexeme

variable {ν : Type} {lexeme : Lexeme ν}

/-- What opens a clause is no name. -/
theorem name?_of_opensClause (opens : lexeme.opensClause = true) : lexeme.name? = none := by
  cases lexeme <;> first | rfl | contradiction

/-- What opens a clause is no string. -/
theorem text?_of_opensClause (opens : lexeme.opensClause = true) : lexeme.text? = none := by
  cases lexeme <;> first | rfl | contradiction

/-- What opens a clause is no number. -/
theorem number?_of_opensClause (opens : lexeme.opensClause = true) : lexeme.number? = none := by
  cases lexeme <;> first | rfl | contradiction

/-- What opens a clause is no colon. -/
theorem isColon_of_opensClause (opens : lexeme.opensClause = true) : lexeme.isColon = false := by
  cases lexeme <;> first | rfl | contradiction

end Lexeme

namespace Clause

/-! ### Reading up to an opener -/

section Boundary

variable {ν α : Type} {first : Token ν} (opens : first.lexeme.opensClause = true)
  (rest : List (Token ν)) (stop : Position)

/-- What is read of some tokens, with an opener and the tokens behind it left over, too. -/
def before {β : Type} (first : Token ν) (rest : List (Token ν)) (read : β × List (Token ν)) :
    β × List (Token ν) :=
  (read.1, read.2 ++ first :: rest)

/-- An operand is taken as if the tokens ended at an opener that is no such operand. -/
theorem take_before {accept : Lexeme ν → Option α} (rejects : accept first.lexeme = none)
    (operand : Operand) (tokens : List (Token ν)) :
    take accept operand stop (tokens ++ first :: rest) =
      before first rest (take accept operand first.place tokens) := by
  cases tokens with
  | nil => simp only [List.nil_append, take, rejects, before]
  | cons token others =>
    simp only [List.cons_append, take]
    cases accept token.lexeme <;> rfl

include opens in
/-- A name that may be absent is taken as if the tokens ended at an opener. -/
theorem takeName?_before (tokens : List (Token ν)) :
    takeName? (tokens ++ first :: rest) = before first rest (takeName? tokens) := by
  cases tokens with
  | nil => simp only [List.nil_append, takeName?, Lexeme.name?_of_opensClause opens, before]
  | cons token others =>
    simp only [List.cons_append, takeName?]
    cases token.lexeme.name? <;> rfl

include opens in
/-- An opener behind tokens does not decide whether a colon is next. -/
theorem colonNext_before (tokens : List (Token ν)) :
    colonNext (tokens ++ first :: rest) = colonNext tokens := by
  cases tokens with
  | nil => exact Lexeme.isColon_of_opensClause opens
  | cons token others => rfl

/-- A colon that is next is not the opener, so dropping it keeps the opener. -/
theorem drop_before {tokens : List (Token ν)} (colon : colonNext tokens = true) :
    (tokens ++ first :: rest).drop 1 = tokens.drop 1 ++ first :: rest := by
  cases tokens with
  | nil => contradiction
  | cons token others => rfl

include opens in
/-- The items of a scene are taken as if the tokens ended at an opener. -/
theorem takeMembers_before (tokens : List (Token ν)) :
    takeMembers stop (tokens ++ first :: rest) =
      before first rest (takeMembers first.place tokens) := by
  have named := Lexeme.name?_of_opensClause opens
  fun_induction takeMembers first.place tokens with
  | case1 =>
    rw [List.nil_append, takeMembers]
    simp only [named, before, List.nil_append]
  | case2 token others unnamed =>
    rw [List.cons_append, takeMembers]
    simp only [unnamed, before, List.cons_append]
  | case3 token others name found colon pattern more ih =>
    have operand : take Lexeme.name? .patternName stop ((others ++ first :: rest).drop 1) =
        before first rest pattern := by
      rw [drop_before rest colon]
      exact take_before rest stop named .patternName (others.drop 1)
    rw [List.cons_append, takeMembers]
    simp only [found, colonNext_before opens, colon, if_true, operand]
    exact congrArg (fun items => (.assign name pattern.1 :: items.1, items.2)) ih
  | case4 token others name found colon more ih =>
    rw [List.cons_append, takeMembers]
    simp only [found, colonNext_before opens, colon]
    exact congrArg (fun items => (.bare name :: items.1, items.2)) ih

include opens in
/-- The second part of a name is taken as if the tokens ended at an opener. -/
theorem takeSecondName_before (tokens : List (Token ν)) :
    takeSecondName (tokens ++ first :: rest) = before first rest (takeSecondName tokens) := by
  cases tokens with
  | nil =>
    -- An opener is no name, whether a colon follows it or not.
    have unnamed := takeName?_before opens rest ([] : List (Token ν))
    unfold takeSecondName
    split
    · rfl
    · exact unnamed
  | cons token others =>
    have colon : colonNext ((token :: others ++ first :: rest).drop 1) =
        colonNext ((token :: others).drop 1) := colonNext_before opens rest others
    rw [takeSecondName, colon, takeSecondName]
    split
    · rfl
    · exact takeName?_before opens rest (token :: others)

include opens in
/-- The target of a parameter is taken as if the tokens ended at an opener. -/
theorem takeTarget_before (tokens : List (Token ν)) :
    takeTarget stop (tokens ++ first :: rest) =
      before first rest (takeTarget first.place tokens) := by
  rw [takeTarget, take_before rest stop (Lexeme.name?_of_opensClause opens), takeTarget]
  cases take Lexeme.name? .paramTarget first.place tokens with
  | mk target others =>
    cases target with
    | found name => simp only [before, takeSecondName_before opens]
    | missed operand place => rfl

include opens in
/-- The word for a loop is taken as if the tokens ended at an opener. -/
theorem takeLoop_before (tokens : List (Token ν)) :
    takeLoop (tokens ++ first :: rest) = before first rest (takeLoop tokens) := by
  rw [takeLoop, takeName?_before opens, takeLoop]
  cases takeName? tokens with
  | mk name others =>
    by_cases looped : name = some "loop"
    · subst looped
      rfl
    · split
      · next found => exact absurd (congrArg Prod.fst found) looped
      · split
        · next found => exact absurd (congrArg Prod.fst found) looped
        · rfl

include opens in
/-- All that a directive takes is taken as if the tokens ended at an opener. -/
theorem ofDirective_before (line : Int) (tokens : List (Token ν)) (directive : Directive) :
    ofDirective stop line (tokens ++ first :: rest) directive =
      before first rest (ofDirective first.place line tokens directive) := by
  have unnamed := Lexeme.name?_of_opensClause opens
  have unquoted := Lexeme.text?_of_opensClause opens
  have uncounted := Lexeme.number?_of_opensClause opens
  cases directive <;>
    simp only [ofDirective, take_before rest stop unnamed, take_before rest stop unquoted,
      take_before rest stop uncounted, takeName?_before opens, takeMembers_before opens,
      takeTarget_before opens, takeLoop_before opens, before]

include opens in
/-- A clause ends before an opener. -/
theorem read_before (token : Token ν) (tokens : List (Token ν)) :
    read stop token (tokens ++ first :: rest) =
      before first rest (read first.place token tokens) := by
  obtain ⟨lexeme, place⟩ := token
  cases lexeme with
  | directive name =>
    simp only [read]
    cases Directive.ofName? name with
    | some directive => exact ofDirective_before opens rest stop place.line tokens directive
    | none => rfl
  | identifier name =>
    simp only [read, colonNext_before opens]
    split
    · next colon =>
      have unnamed := Lexeme.name?_of_opensClause opens
      rw [drop_before rest colon, take_before rest stop unnamed]
      rfl
    · rfl
  | _ => rfl

include opens in
/-- The clauses before an opener are read as if the tokens ended there, and then reading starts anew
with the opener. -/
theorem group_before (tokens : List (Token ν)) :
    group stop (tokens ++ first :: rest) =
      group first.place tokens ++ group stop (first :: rest) := by
  fun_induction group first.place tokens with
  | case1 => rfl
  | case2 token others clause ih =>
    rw [List.cons_append, group, read_before opens]
    exact congrArg (List.cons clause.1) ih

end Boundary

end Clause

/-! ### Where the tokens end -/

/-- A problem with the place where it was found, or without one if that is the end of the tokens. -/
structure Finding where
  problem : Problem
  place : Option Position

/-- The finding in tokens that end at a position. -/
def Finding.settle (stop : Position) (finding : Finding) : Diagnostic :=
  .atPosition finding.problem (finding.place.getD stop)

/-- An operand of tokens whose end is not known yet. -/
inductive Pending (α : Type) where
  | found (value : α)
  | missed (operand : Operand) (place : Option Position)

namespace Pending

variable {α : Type} (stop : Position) (pending : Pending α)

/-- The operand in tokens that end at a position. -/
def settle : Pending α → Slot α
  | found value => .found value
  | missed operand place => .missed operand (place.getD stop)

/-- The operand if it was found. -/
def get? : Pending α → Option α
  | found value => some value
  | missed _ _ => none

/-- The finding that an operand is missed. -/
def findings : Pending α → List Finding
  | found _ => []
  | missed operand place => [⟨.expected operand, place⟩]

/-- Where the tokens end does not matter for the operand that is found. -/
@[simp] theorem get?_settle : (pending.settle stop).get? = pending.get? := by
  cases pending <;> rfl

/-- Where the tokens end does not matter for the operand that is put in for a missing one. -/
@[simp] theorem getD_settle (default : α) :
    (pending.settle stop).getD default = pending.get?.getD default := by
  cases pending <;> rfl

/-- Where the tokens end matters for an operand only by the places of its errors. -/
@[simp] theorem errors_settle :
    (pending.settle stop).errors = pending.findings.map (Finding.settle stop) := by
  cases pending <;> rfl

end Pending

namespace Clause

/-- An operand is settled by the end of the tokens, and what is left does not depend on it. -/
theorem take_pending {α : Type} (accept : Lexeme Int → Option α) (operand : Operand)
    (tokens : List (Token Int)) :
    ∃ pending rest, ∀ stop,
      take accept operand stop tokens = (Pending.settle stop pending, rest) := by
  cases tokens with
  | nil => exact ⟨.missed operand none, [], fun stop => rfl⟩
  | cons token rest =>
    simp only [take]
    cases accept token.lexeme with
    | some value => exact ⟨.found value, rest, fun stop => rfl⟩
    | none => exact ⟨.missed operand (some token.place), token :: rest, fun stop => rfl⟩

/-- The items of a scene: their assignments and what is left are fixed, and their errors are settled
by the end of the tokens. -/
theorem takeMembers_pending (tokens : List (Token Int)) :
    ∃ (assignments : List Assignment) (findings : List Finding) (rest : List (Token Int)), ∀ stop,
      (takeMembers stop tokens).1.filterMap Member.assignment? = assignments ∧
      (takeMembers stop tokens).1.flatMap Member.errors = findings.map (Finding.settle stop) ∧
      (takeMembers stop tokens).2 = rest := by
  fun_induction takeMembers .start tokens with
  | case1 =>
    refine ⟨[], [], [], fun stop => ?_⟩
    rw [takeMembers]
    exact ⟨rfl, rfl, rfl⟩
  | case2 token rest unnamed =>
    refine ⟨[], [], token :: rest, fun stop => ?_⟩
    rw [takeMembers]
    simp [unnamed]
  | case3 token rest name named colon pattern more ih =>
    obtain ⟨assignments, findings, left, others⟩ := ih
    obtain ⟨pending, behind, same⟩ := take_pending Lexeme.name? .patternName (rest.drop 1)
    have here : pattern.2 = behind := congrArg Prod.snd (same .start)
    rw [here] at others
    refine ⟨⟨name, pending.get?⟩ :: assignments, pending.findings ++ findings, left, fun stop => ?_⟩
    obtain ⟨assigned, found, rested⟩ := others stop
    rw [takeMembers]
    simp only [named, colon, if_true, same]
    refine ⟨?_, ?_, rested⟩
    · rw [List.filterMap_cons, Member.assignment?, Pending.get?_settle, assigned]
    · rw [List.flatMap_cons, Member.errors, Pending.errors_settle, found, List.map_append]
  | case4 token rest name named colon more ih =>
    obtain ⟨assignments, findings, left, others⟩ := ih
    refine ⟨assignments, findings, left, fun stop => ?_⟩
    rw [takeMembers]
    simp only [named, colon]
    exact others stop

/-- Where the tokens end matters for the target of a parameter only by the places of its errors. -/
theorem takeTarget_pending (tokens : List (Token Int)) :
    ∃ pending rest, ∀ stop, takeTarget stop tokens = (Pending.settle stop pending, rest) := by
  obtain ⟨pending, rest, same⟩ := take_pending Lexeme.name? .paramTarget tokens
  simp only [takeTarget, same]
  cases pending with
  | found name =>
    exact ⟨.found (name, (takeSecondName rest).1), (takeSecondName rest).2, fun stop => rfl⟩
  | missed operand place => exact ⟨.missed operand place, rest, fun stop => rfl⟩

/-- A clause of tokens whose end is not known yet: its statement, its warnings and the tokens behind
it are fixed, and its errors are settled by the end. -/
structure Settles (read : Position → Clause Int × List (Token Int)) : Prop where
  statement : ∀ stop, (read stop).1.statement? = (read .start).1.statement?
  warnings : ∀ stop, (read stop).1.warnings = (read .start).1.warnings
  errors : ∃ findings : List Finding, ∀ stop,
    (read stop).1.errors = findings.map (Finding.settle stop)
  rest : ∀ stop, (read stop).2 = (read .start).2

/-- What does not look at the end of the tokens is settled. -/
theorem settles_const {clause : Clause Int} {rest : List (Token Int)} (findings : List Finding)
    (found : ∀ stop, clause.errors = findings.map (Finding.settle stop)) :
    Settles fun _ => (clause, rest) :=
  ⟨fun _ => rfl, fun _ => rfl, ⟨findings, found⟩, fun _ => rfl⟩

/-- Where the tokens end matters for a clause only by the places of its errors. -/
theorem ofDirective_settles (line : Int) (tokens : List (Token Int)) (directive : Directive) :
    Settles fun stop => ofDirective stop line tokens directive := by
  cases directive with
  | title =>
    obtain ⟨text, rest, same⟩ := take_pending Lexeme.text? .titleText tokens
    simp only [ofDirective, same]
    exact ⟨by simp [statement?], fun _ => rfl, ⟨text.findings, by simp [errors]⟩, fun _ => rfl⟩
  | tempo =>
    obtain ⟨bpm, rest, same⟩ := take_pending Lexeme.number? .tempo tokens
    simp only [ofDirective, same]
    exact ⟨by simp [statement?], by simp [warnings], ⟨bpm.findings, by simp [errors]⟩, fun _ => rfl⟩
  | swing =>
    obtain ⟨percent, rest, same⟩ := take_pending Lexeme.number? .swing tokens
    simp only [ofDirective, same]
    exact ⟨by simp [statement?], by simp [warnings], ⟨percent.findings, by simp [errors]⟩,
      fun _ => rfl⟩
  | pattern =>
    obtain ⟨name, behind, sameName⟩ := take_pending Lexeme.name? .patternName tokens
    obtain ⟨text, rest, sameText⟩ := take_pending Lexeme.text? .patternText behind
    simp only [ofDirective, sameName, sameText]
    exact ⟨by simp [statement?], by simp [warnings],
      ⟨name.findings ++ text.findings, by simp [errors]⟩, fun _ => rfl⟩
  | scene =>
    obtain ⟨name, behind, same⟩ := take_pending Lexeme.name? .sceneName tokens
    obtain ⟨assignments, findings, rest, members⟩ := takeMembers_pending behind
    simp only [ofDirective, same]
    refine ⟨fun stop => ?_, fun _ => rfl, ⟨name.findings ++ findings, fun stop => ?_⟩,
      fun stop => (members stop).2.2.trans (members .start).2.2.symm⟩
    · simp [statement?, (members stop).1, (members .start).1]
    · simp [errors, (members stop).2.1]
  | play => exact settles_const [] fun _ => rfl
  | stop => exact settles_const [] fun _ => rfl
  | param =>
    obtain ⟨target, behind, sameTarget⟩ := takeTarget_pending tokens
    obtain ⟨value, rest, sameValue⟩ := take_pending Lexeme.number? .paramValue behind
    simp only [ofDirective, sameTarget, sameValue]
    exact ⟨by simp [statement?], fun _ => rfl,
      ⟨target.findings ++ value.findings, by simp [errors]⟩, fun _ => rfl⟩
  | poke =>
    obtain ⟨address, behind, sameAddress⟩ := take_pending Lexeme.number? .address tokens
    obtain ⟨value, rest, sameValue⟩ := take_pending Lexeme.number? .value behind
    simp only [ofDirective, sameAddress, sameValue]
    exact ⟨by simp [statement?], fun _ => rfl,
      ⟨address.findings ++ value.findings, by simp [errors]⟩, fun _ => rfl⟩
  | loop =>
    obtain ⟨count, rest, same⟩ := take_pending Lexeme.number? .loopCount tokens
    simp only [ofDirective, same]
    exact ⟨by simp [statement?], fun _ => rfl, ⟨count.findings, by simp [errors]⟩, fun _ => rfl⟩
  | wait =>
    obtain ⟨steps, rest, same⟩ := take_pending Lexeme.number? .stepCount tokens
    simp only [ofDirective, same]
    exact ⟨by simp [statement?], fun _ => rfl, ⟨steps.findings, by simp [errors]⟩, fun _ => rfl⟩

/-- Where the tokens end decides only where a missing operand is reported. -/
theorem read_settles (token : Token Int) (tokens : List (Token Int)) :
    Settles fun stop => read stop token tokens := by
  obtain ⟨lexeme, place⟩ := token
  cases lexeme with
  | directive name =>
    simp only [read]
    cases Directive.ofName? name with
    | some directive => exact ofDirective_settles place.line tokens directive
    | none => exact settles_const [⟨.unknownDirective name, some place⟩] fun _ => rfl
  | identifier name =>
    simp only [read]
    cases colonNext tokens with
    | true =>
      obtain ⟨pattern, rest, same⟩ := take_pending Lexeme.name? .patternName (tokens.drop 1)
      simp only [if_true, same]
      exact ⟨by simp [statement?], fun _ => rfl, ⟨pattern.findings, by simp [errors]⟩,
        fun _ => rfl⟩
    | false => exact settles_const [] fun _ => rfl
  | _ => exact settles_const [] fun _ => rfl

/-- The clauses of tokens whose end is not known yet. -/
structure SettlesAll (tokens : List (Token Int)) (findings : List Finding) (stop : Position) :
    Prop where
  body : (group stop tokens).filterMap statement? = (group .start tokens).filterMap statement?
  warnings : (group stop tokens).flatMap warnings = (group .start tokens).flatMap warnings
  errors : (group stop tokens).flatMap errors = findings.map (Finding.settle stop)

/-- Where the tokens end matters for clauses only by the places of their errors. -/
theorem group_settles (tokens : List (Token Int)) :
    ∃ findings : List Finding, ∀ stop, SettlesAll tokens findings stop := by
  fun_induction group .start tokens with
  | case1 =>
    exact ⟨[], fun stop => ⟨by rw [group, group], by rw [group, group], by rw [group]; rfl⟩⟩
  | case2 token rest clause ih =>
    obtain ⟨later, others⟩ := ih
    have settles := read_settles token rest
    obtain ⟨findings, found⟩ := settles.errors
    refine ⟨findings ++ later, fun stop => ?_⟩
    have left : (read stop token rest).2 = clause.2 := settles.rest stop
    have others := others stop
    constructor
    · simp only [group, List.filterMap_cons, left, settles.statement stop, others.body, clause]
    · simp only [group, List.flatMap_cons, left, settles.warnings stop, others.warnings, clause]
    · simp only [group, List.flatMap_cons, left, found, others.errors, List.map_append]

end Clause

end StepSequencer
