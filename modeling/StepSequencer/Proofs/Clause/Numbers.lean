import StepSequencer.Clause.Meaning

/-!
# Tokens whose numbers are documents

How tokens group into clauses does not depend on the numbers that they hold, so reading commutes
with any exchange of the numbers. In particular a token list whose numbers are still documents is
read like the list of their values, and no document is refused if all of them are whole numbers.
-/
namespace StepSequencer

variable {ν μ α β : Type}

/-- The same lexeme with another number. -/
def Lexeme.exchange (value : ν → μ) : Lexeme ν → Lexeme μ
  | directive name => .directive name
  | identifier name => .identifier name
  | string text => .string text
  | number old => .number (value old)
  | comment text => .comment text
  | newline => .newline
  | colon => .colon
  | endOfInput => .endOfInput

/-- The same token with another number. -/
def Token.exchange (value : ν → μ) (token : Token ν) : Token μ :=
  ⟨token.lexeme.exchange value, token.place⟩

/-- The same operand with another value. -/
def Slot.exchange (value : α → β) : Slot α → Slot β
  | found old => .found (value old)
  | missed operand place => .missed operand place

/-- The same clause with other numbers. -/
def Clause.exchange (value : ν → μ) : Clause ν → Clause μ
  | comment line text => .comment line text
  | title line text => .title line text
  | tempo line bpm => .tempo line (bpm.exchange value)
  | swing line percent => .swing line (percent.exchange value)
  | pattern line name text => .pattern line name text
  | scene line name members => .scene line name members
  | play line name looped => .play line name looped
  | stop line => .stop line
  | param line target setting => .param line target (setting.exchange value)
  | poke line address byte => .poke line (address.exchange value) (byte.exchange value)
  | loop line count => .loop line (count.exchange value)
  | wait line steps => .wait line (steps.exchange value)
  | assign line voice name => .assign line voice name
  | unknown name place => .unknown name place
  | bare name place => .bare name place
  | stray place => .stray place

namespace Lexeme

variable (value : ν → μ) (lexeme : Lexeme ν)

/-- Names do not depend on how numbers are represented. -/
@[simp] theorem name?_exchange : (lexeme.exchange value).name? = lexeme.name? := by
  cases lexeme <;> rfl

/-- Strings do not depend on how numbers are represented. -/
@[simp] theorem text?_exchange : (lexeme.exchange value).text? = lexeme.text? := by
  cases lexeme <;> rfl

/-- A number is represented in the new way. -/
@[simp] theorem number?_exchange :
    (lexeme.exchange value).number? = lexeme.number?.map value := by
  cases lexeme <;> rfl

/-- Colons do not depend on how numbers are represented. -/
@[simp] theorem isColon_exchange : (lexeme.exchange value).isColon = lexeme.isColon := by
  cases lexeme <;> rfl

/-- Ends of lines do not depend on how numbers are represented. -/
@[simp] theorem isNewline_exchange : (lexeme.exchange value).isNewline = lexeme.isNewline := by
  cases lexeme <;> rfl

/-- The end of the input does not depend on how numbers are represented. -/
@[simp] theorem isEnd_exchange : (lexeme.exchange value).isEnd = lexeme.isEnd := by
  cases lexeme <;> rfl

end Lexeme

/-- An operand that is no number stays as it is. -/
theorem Slot.exchange_id (slot : Slot α) : slot.exchange id = slot := by
  cases slot <;> rfl

namespace Clause

variable (value : ν → μ) (stop : Position) (tokens : List (Token ν))

/-- An operand is taken from the same token in either representation of numbers. -/
theorem take_exchange {accept : Lexeme ν → Option α} {accept' : Lexeme μ → Option β} {taken : α → β}
    (same : ∀ lexeme, accept' (lexeme.exchange value) = (accept lexeme).map taken)
    (operand : Operand) :
    take accept' operand stop (tokens.map (Token.exchange value)) =
      Prod.map (Slot.exchange taken) (List.map (Token.exchange value))
        (take accept operand stop tokens) := by
  cases tokens with
  | nil => rfl
  | cons token rest =>
    simp only [List.map_cons, take, Token.exchange, same]
    cases accept token.lexeme <;> rfl

/-- An operand that is no number is taken unchanged. -/
theorem take_unchanged {accept : Lexeme ν → Option α} {accept' : Lexeme μ → Option α}
    (same : ∀ lexeme, accept' (lexeme.exchange value) = accept lexeme) (operand : Operand) :
    take accept' operand stop (tokens.map (Token.exchange value)) =
      Prod.map id (List.map (Token.exchange value)) (take accept operand stop tokens) := by
  have kept : ∀ lexeme, accept' (lexeme.exchange value) = (accept lexeme).map id := by
    intro lexeme
    rw [same, Option.map_id]
    rfl
  rw [take_exchange value stop tokens kept]
  exact congrArg (fun taken => Prod.map taken _ _) (funext Slot.exchange_id)

/-- A name that may be absent is taken from the same tokens in either representation of numbers. -/
theorem takeName?_exchange :
    takeName? (tokens.map (Token.exchange value)) =
      Prod.map id (List.map (Token.exchange value)) (takeName? tokens) := by
  cases tokens with
  | nil => rfl
  | cons token rest =>
    simp only [List.map_cons, takeName?, Token.exchange, Lexeme.name?_exchange]
    cases token.lexeme.name? <;> rfl

/-- Whether a colon is next does not depend on how numbers are represented. -/
@[simp] theorem colonNext_exchange :
    colonNext (tokens.map (Token.exchange value)) = colonNext tokens := by
  cases tokens with
  | nil => rfl
  | cons token rest => exact token.lexeme.isColon_exchange value

/-- The items of a scene are the same in either representation of numbers. -/
theorem takeMembers_exchange :
    takeMembers stop (tokens.map (Token.exchange value)) =
      Prod.map id (List.map (Token.exchange value)) (takeMembers stop tokens) := by
  fun_induction takeMembers stop tokens with
  | case1 => simp [takeMembers]
  | case2 token rest unnamed =>
    rw [List.map_cons, takeMembers]
    simp only [Token.exchange, Lexeme.name?_exchange, unnamed]
    rfl
  | case3 token rest name named colon pattern more ih =>
    have operand := take_unchanged value stop (rest.drop 1)
      (fun lexeme => lexeme.name?_exchange value) .patternName
    rw [List.map_drop] at operand
    rw [List.map_cons, takeMembers]
    simp only [Token.exchange, Lexeme.name?_exchange, named, colonNext_exchange, colon, if_true,
      operand]
    exact congrArg (fun items => (.assign name pattern.1 :: items.1, items.2)) ih
  | case4 token rest name named colon more ih =>
    rw [List.map_cons, takeMembers]
    simp only [Token.exchange, Lexeme.name?_exchange, named, colonNext_exchange, colon]
    exact congrArg (fun items => (.bare name :: items.1, items.2)) ih

/-- The second part of a name is the same in either representation of numbers. -/
theorem takeSecondName_exchange :
    takeSecondName (tokens.map (Token.exchange value)) =
      Prod.map id (List.map (Token.exchange value)) (takeSecondName tokens) := by
  rw [takeSecondName, ← List.map_drop, colonNext_exchange, takeSecondName]
  split
  · rfl
  · exact takeName?_exchange value tokens

/-- The target of a parameter is the same in either representation of numbers. -/
theorem takeTarget_exchange :
    takeTarget stop (tokens.map (Token.exchange value)) =
      Prod.map id (List.map (Token.exchange value)) (takeTarget stop tokens) := by
  rw [takeTarget, take_unchanged value stop tokens fun lexeme => lexeme.name?_exchange value,
    takeTarget]
  cases take Lexeme.name? .paramTarget stop tokens with
  | mk target rest =>
    cases target with
    | found name =>
      simp only [Prod.map_apply, id_eq, takeSecondName_exchange]
      rfl
    | missed operand place => rfl

/-- The word for a loop is taken from the same tokens in either representation of numbers. -/
theorem takeLoop_exchange :
    takeLoop (tokens.map (Token.exchange value)) =
      Prod.map id (List.map (Token.exchange value)) (takeLoop tokens) := by
  rw [takeLoop, takeName?_exchange, takeLoop]
  cases takeName? tokens with
  | mk name rest =>
    by_cases named : name = some "loop"
    · subst named
      rfl
    · split
      · next found => exact absurd (congrArg Prod.fst found) named
      · split
        · next found => exact absurd (congrArg Prod.fst found) named
        · rfl

/-- A directive takes the same operands in either representation of numbers. -/
theorem ofDirective_exchange (line : Int) (directive : Directive) :
    ofDirective stop line (tokens.map (Token.exchange value)) directive =
      Prod.map (Clause.exchange value) (List.map (Token.exchange value))
        (ofDirective stop line tokens directive) := by
  have named := fun tokens => take_unchanged value stop tokens
    fun lexeme => lexeme.name?_exchange value
  have quoted := fun tokens => take_unchanged value stop tokens
    fun lexeme => lexeme.text?_exchange value
  have counted := fun tokens => take_exchange value stop tokens
    fun lexeme => lexeme.number?_exchange value
  cases directive <;>
    simp only [ofDirective, named, quoted, counted, takeName?_exchange, takeMembers_exchange,
      takeTarget_exchange, takeLoop_exchange, Prod.map_apply, Prod.map_fst, Prod.map_snd,
      Clause.exchange, id_eq]

/-- A clause is read whatever the numbers are. -/
theorem read_exchange (token : Token ν) :
    read stop (token.exchange value) (tokens.map (Token.exchange value)) =
      Prod.map (Clause.exchange value) (List.map (Token.exchange value))
        (read stop token tokens) := by
  obtain ⟨lexeme, place⟩ := token
  cases lexeme with
  | directive name =>
    simp only [read, Token.exchange, Lexeme.exchange]
    cases Directive.ofName? name with
    | some directive => exact ofDirective_exchange value stop tokens place.line directive
    | none => rfl
  | identifier name =>
    simp only [read, Token.exchange, Lexeme.exchange, colonNext_exchange]
    split
    · rw [← List.map_drop, take_unchanged value stop _ fun lexeme => lexeme.name?_exchange value]
      rfl
    · rfl
  | _ => rfl

/-- Tokens group whatever their numbers are. -/
theorem group_exchange :
    group stop (tokens.map (Token.exchange value)) =
      (group stop tokens).map (Clause.exchange value) := by
  fun_induction group stop tokens with
  | case1 => simp [group]
  | case2 token rest clause ih =>
    rw [List.map_cons, group, read_exchange]
    exact congrArg (List.cons (clause.1.exchange value)) ih

/-- Tokens have the same clauses in either representation of numbers. -/
theorem ofTokens_exchange :
    ofTokens (tokens.map (Token.exchange value)) =
      (ofTokens tokens).map (Clause.exchange value) := by
  have seen : (fun token => !token.lexeme.isNewline) ∘ Token.exchange value =
      fun token : Token ν => !token.lexeme.isNewline := by
    funext token
    exact congrArg (! ·) (token.lexeme.isNewline_exchange value)
  have ends : (fun token => token.lexeme.isEnd) ∘ Token.exchange value =
      fun token : Token ν => token.lexeme.isEnd := by
    funext token
    exact token.lexeme.isEnd_exchange value
  have inner : content (tokens.map (Token.exchange value)) =
      (content tokens).map (Token.exchange value) := by
    rw [content, List.filter_map, seen, List.takeWhile_map]
    exact congrArg (fun going => (List.takeWhile going _).map _)
      (congrArg (fun ends => fun token => !ends token) ends)
  have place : endPlace (tokens.map (Token.exchange value)) = endPlace tokens := by
    rw [endPlace, List.filter_map, seen, List.find?_map, ends, List.getLast?_map, endPlace]
    cases (tokens.filter fun token => !token.lexeme.isNewline).find?
        fun token => token.lexeme.isEnd with
    | some token => rfl
    | none => cases (tokens.filter fun token => !token.lexeme.isNewline).getLast? <;> rfl
  rw [ofTokens, inner, place, group_exchange, ofTokens]

end Clause

section Documents

variable {ε : Type} {read : μ → Except ε Int} {value : Int → μ}
  (reads : ∀ number, read (value number) = .ok number)

include reads

/-- A number that is read back from its representation is the number. -/
theorem Slot.mapM_exchange (slot : Slot Int) : (slot.exchange value).mapM read = .ok slot := by
  cases slot with
  | found number =>
    simp only [exchange, mapM, reads]
    rfl
  | missed operand place => rfl

/-- A clause whose numbers are read back from their representations is the clause. -/
theorem Clause.mapM_exchange (clause : Clause Int) :
    (clause.exchange value).mapM read = .ok clause := by
  cases clause <;> simp only [exchange, mapM, Slot.mapM_exchange reads] <;> rfl

/-- Clauses whose numbers are read back from their representations are the clauses. -/
theorem Clause.mapM_exchange_all (clauses : List (Clause Int)) :
    (clauses.map (exchange value)).mapM (mapM read) = .ok clauses := by
  induction clauses with
  | nil => rfl
  | cons clause clauses ih =>
    rw [List.map_cons, List.mapM_cons, mapM_exchange reads, ih]
    rfl

end Documents

/-- Tokens whose numbers are whole numbers in documents are read like the tokens themselves. -/
theorem Parse.ofLooseTokens_exchange (tokens : List (Token Int)) :
    ofLooseTokens (tokens.map (Token.exchange Json.int)) = .ok (ofTokens tokens) := by
  have numbers : ∀ number, (Json.int number).asNumber = .ok number := fun _ => rfl
  rw [ofLooseTokens, Clause.ofTokens_exchange, Clause.mapM_exchange_all numbers]
  rfl

end StepSequencer
