import StepSequencer.Diagnostic
import StepSequencer.Token

/-!
# Clauses

A clause is a group of tokens that belongs together: a directive with its operands, an assignment,
a comment, or a single token without a meaning. Operands that are not where they have to be are
recorded with the position at which they were missed, and no token is skipped for them.

Tokens are grouped from left to right, each clause as long as its shape allows. Line feeds do not
matter, and nothing behind the first end of input is read.
-/
namespace StepSequencer

/-- An operand that was found, or the place where it was missed. -/
inductive Slot (α : Type) where
  | found (value : α)
  | missed (operand : Operand) (place : Position)
deriving DecidableEq, Repr

/-- The items behind a scene's name: assignments, and names without a colon, which mean nothing. -/
inductive Member where
  | assign (voice : String) (pattern : Slot String)
  | bare (name : String)
deriving DecidableEq, Repr

/-- The directives of the language. -/
inductive Directive where
  | title
  | tempo
  | swing
  | pattern
  | scene
  | play
  | stop
  | param
  | poke
  | loop
  | wait
deriving DecidableEq, Repr

namespace Directive

/-- All directives. -/
def all : List Directive :=
  [title, tempo, swing, pattern, scene, play, stop, param, poke, loop, wait]

/-- The name of a directive behind its `@`. -/
def name : Directive → String
  | title => "title"
  | tempo => "tempo"
  | swing => "swing"
  | pattern => "pattern"
  | scene => "scene"
  | play => "play"
  | stop => "stop"
  | param => "param"
  | poke => "poke"
  | loop => "loop"
  | wait => "wait"

/-- The directive of a name. -/
def ofName? (name : String) : Option Directive :=
  all.find? fun directive => directive.name == name

end Directive

/-- The shapes of clauses, each with the line or position of its first token. -/
inductive Clause (ν : Type) where
  | comment (line : Int) (text : String)
  | title (line : Int) (text : Slot String)
  | tempo (line : Int) (value : Slot ν)
  | swing (line : Int) (value : Slot ν)
  | pattern (line : Int) (name text : Slot String)
  | scene (line : Int) (name : Slot String) (members : List Member)
  | play (line : Int) (scene : Option String) (loop : Bool)
  | stop (line : Int)
  /-- The target is a name with or without a second name behind it. -/
  | param (line : Int) (target : Slot (String × Option String)) (value : Slot ν)
  | poke (line : Int) (address value : Slot ν)
  | loop (line : Int) (count : Slot ν)
  | wait (line : Int) (steps : Slot ν)
  | assign (line : Int) (voice : String) (pattern : Slot String)
  | unknown (name : String) (place : Position)
  /-- A name without a colon. -/
  | bare (name : String) (place : Position)
  /-- A string, a number or a mark on its own. -/
  | stray (place : Position)
deriving DecidableEq, Repr

namespace Lexeme

variable {ν : Type}

/-- The name of an identifier. -/
def name? : Lexeme ν → Option String
  | identifier name => some name
  | _ => none

/-- The text of a string. -/
def text? : Lexeme ν → Option String
  | string text => some text
  | _ => none

/-- The value of a number. -/
def number? : Lexeme ν → Option ν
  | number value => some value
  | _ => none

/-- Whether a lexeme is a line feed. -/
def isNewline : Lexeme ν → Bool
  | newline => true
  | _ => false

/-- Whether a lexeme is a colon. -/
def isColon : Lexeme ν → Bool
  | colon => true
  | _ => false

/-- Whether a lexeme is the end of input. -/
def isEnd : Lexeme ν → Bool
  | endOfInput => true
  | _ => false

end Lexeme

namespace Clause

variable {ν : Type}

/-- Take an operand from the front of the tokens, or miss it there. -/
def take {α : Type} (accept : Lexeme ν → Option α) (operand : Operand) (stop : Position) :
    List (Token ν) → Slot α × List (Token ν)
  | [] => (.missed operand stop, [])
  | token :: rest =>
    match accept token.lexeme with
    | some value => (.found value, rest)
    | none => (.missed operand token.place, token :: rest)

/-- Taking an operand leaves no more tokens than there were. -/
theorem take_length {α : Type} (accept : Lexeme ν → Option α) (operand : Operand)
    (stop : Position) (tokens : List (Token ν)) :
    (take accept operand stop tokens).2.length ≤ tokens.length := by
  cases tokens with
  | nil => simp [take]
  | cons token rest =>
    simp only [take]
    split <;> simp

/-- The name at the front of the tokens, and the tokens behind it. -/
def takeName? : List (Token ν) → Option String × List (Token ν)
  | [] => (none, [])
  | token :: rest =>
    match token.lexeme.name? with
    | some name => (some name, rest)
    | none => (none, token :: rest)

/-- Taking a name that may be absent leaves no more tokens than there were. -/
theorem takeName?_length (tokens : List (Token ν)) :
    (takeName? tokens).2.length ≤ tokens.length := by
  cases tokens with
  | nil => simp [takeName?]
  | cons token rest =>
    simp only [takeName?]
    split <;> simp

/-- Whether a colon stands at the front of the tokens. -/
def colonNext : List (Token ν) → Bool
  | [] => false
  | token :: _ => token.lexeme.isColon

/-- The items behind a scene's name: all directly following names, each with its pattern if a colon
stands behind it. -/
def takeMembers (stop : Position) : List (Token ν) → List Member × List (Token ν)
  | [] => ([], [])
  | token :: rest =>
    match token.lexeme.name? with
    | none => ([], token :: rest)
    | some name =>
      if colonNext rest then
        let pattern := take Lexeme.name? .patternName stop (rest.drop 1)
        let more := takeMembers stop pattern.2
        (.assign name pattern.1 :: more.1, more.2)
      else
        let more := takeMembers stop rest
        (.bare name :: more.1, more.2)
termination_by tokens => tokens.length
decreasing_by
  · have := take_length Lexeme.name? .patternName stop (rest.drop 1)
    simp only [List.length_drop] at this
    simp only [List.length_cons]
    omega
  · simp

/-- Taking the items of a scene leaves no more tokens than there were. -/
theorem takeMembers_length (stop : Position) (tokens : List (Token ν)) :
    (takeMembers stop tokens).2.length ≤ tokens.length := by
  fun_induction takeMembers stop tokens with
  | case1 => simp
  | case2 => simp
  | case3 token rest name _ _ pattern more ih =>
    have := take_length Lexeme.name? .patternName stop (rest.drop 1)
    simp only [List.length_drop] at this
    refine Nat.le_trans ih (Nat.le_trans this ?_)
    simp only [List.length_cons]
    omega
  | case4 token rest name _ _ more ih => exact Nat.le_succ_of_le ih

/-- A second name behind a parameter's first, unless a colon follows it. -/
def takeSecondName (tokens : List (Token ν)) : Option String × List (Token ν) :=
  if colonNext (tokens.drop 1) then (none, tokens) else takeName? tokens

/-- Taking the second part of a name leaves no more tokens than there were. -/
theorem takeSecondName_length (tokens : List (Token ν)) :
    (takeSecondName tokens).2.length ≤ tokens.length := by
  unfold takeSecondName
  split
  · simp
  · exact takeName?_length tokens

/-- The target of a parameter. -/
def takeTarget (stop : Position) (tokens : List (Token ν)) :
    Slot (String × Option String) × List (Token ν) :=
  match take Lexeme.name? .paramTarget stop tokens with
  | (.found name, rest) =>
    let second := takeSecondName rest
    (.found (name, second.1), second.2)
  | (.missed operand place, rest) => (.missed operand place, rest)

/-- Taking the target of a parameter leaves no more tokens than there were. -/
theorem takeTarget_length (stop : Position) (tokens : List (Token ν)) :
    (takeTarget stop tokens).2.length ≤ tokens.length := by
  have first := take_length Lexeme.name? .paramTarget stop tokens
  unfold takeTarget
  split
  · next name rest found =>
    rw [found] at first
    exact Nat.le_trans (takeSecondName_length rest) first
  · next found => rwa [found] at first

/-- The word `loop` at the front of the tokens. -/
def takeLoop (tokens : List (Token ν)) : Bool × List (Token ν) :=
  match takeName? tokens with
  | (some "loop", rest) => (true, rest)
  | _ => (false, tokens)

/-- Taking the word for a loop leaves no more tokens than there were. -/
theorem takeLoop_length (tokens : List (Token ν)) :
    (takeLoop tokens).2.length ≤ tokens.length := by
  have named := takeName?_length tokens
  unfold takeLoop
  split
  · next found => rwa [found] at named
  · simp

/-- The clause of a directive on a line, and the tokens behind its operands. -/
def ofDirective (stop : Position) (line : Int) (tokens : List (Token ν)) :
    Directive → Clause ν × List (Token ν)
  | .title =>
    let text := take Lexeme.text? .titleText stop tokens
    (.title line text.1, text.2)
  | .tempo =>
    let value := take Lexeme.number? .tempo stop tokens
    (.tempo line value.1, value.2)
  | .swing =>
    let value := take Lexeme.number? .swing stop tokens
    (.swing line value.1, value.2)
  | .pattern =>
    let name := take Lexeme.name? .patternName stop tokens
    let text := take Lexeme.text? .patternText stop name.2
    (.pattern line name.1 text.1, text.2)
  | .scene =>
    let name := take Lexeme.name? .sceneName stop tokens
    let members := takeMembers stop name.2
    (.scene line name.1 members.1, members.2)
  | .play =>
    let scene := takeName? tokens
    let loop := takeLoop scene.2
    (.play line scene.1 loop.1, loop.2)
  | .stop => (.stop line, tokens)
  | .param =>
    let target := takeTarget stop tokens
    let value := take Lexeme.number? .paramValue stop target.2
    (.param line target.1 value.1, value.2)
  | .poke =>
    let address := take Lexeme.number? .address stop tokens
    let value := take Lexeme.number? .value stop address.2
    (.poke line address.1 value.1, value.2)
  | .loop =>
    let count := take Lexeme.number? .loopCount stop tokens
    (.loop line count.1, count.2)
  | .wait =>
    let steps := take Lexeme.number? .stepCount stop tokens
    (.wait line steps.1, steps.2)

/-- Reading behind a directive leaves no more tokens than there were, so that reading goes on to an
end. -/
theorem ofDirective_length (stop : Position) (line : Int) (tokens : List (Token ν))
    (directive : Directive) :
    (ofDirective stop line tokens directive).2.length ≤ tokens.length := by
  cases directive <;> simp only [ofDirective, take_length, Nat.le_refl]
  · exact Nat.le_trans (take_length ..) (take_length ..)
  · exact Nat.le_trans (takeMembers_length ..) (take_length ..)
  · exact Nat.le_trans (takeLoop_length _) (takeName?_length _)
  · exact Nat.le_trans (take_length ..) (takeTarget_length ..)
  · exact Nat.le_trans (take_length ..) (take_length ..)

/-- The clause that starts with `token`, and the tokens behind it. -/
def read (stop : Position) (token : Token ν) (rest : List (Token ν)) :
    Clause ν × List (Token ν) :=
  match token.lexeme with
  | .comment text => (.comment token.place.line text, rest)
  | .directive name =>
    match Directive.ofName? name with
    | some directive => ofDirective stop token.place.line rest directive
    | none => (.unknown name token.place, rest)
  | .identifier name =>
    if colonNext rest then
      let pattern := take Lexeme.name? .patternName stop (rest.drop 1)
      (.assign token.place.line name pattern.1, pattern.2)
    else (.bare name token.place, rest)
  | _ => (.stray token.place, rest)

/-- A clause takes at least its first token. -/
theorem read_length (stop : Position) (token : Token ν) (rest : List (Token ν)) :
    (read stop token rest).2.length ≤ rest.length := by
  unfold read
  split
  · simp
  · split
    · exact ofDirective_length ..
    · simp
  · split
    · have := take_length Lexeme.name? .patternName stop (rest.drop 1)
      simp only [List.length_drop] at this
      exact Nat.le_trans this (Nat.sub_le ..)
    · simp
  · simp

/-- The clauses of tokens that end at the position `stop`. -/
def group (stop : Position) : List (Token ν) → List (Clause ν)
  | [] => []
  | token :: rest =>
    let clause := read stop token rest
    clause.1 :: group stop clause.2
termination_by tokens => tokens.length
decreasing_by exact Nat.lt_succ_of_le (read_length stop token rest)

/-- The tokens that can be part of a clause: all but line feeds, up to the end of input. -/
def content (tokens : List (Token ν)) : List (Token ν) :=
  (tokens.filter fun token => !token.lexeme.isNewline).takeWhile fun token => !token.lexeme.isEnd

/-- The position of the end of input. Tokens without one end at their last token. -/
def endPlace (tokens : List (Token ν)) : Position :=
  let seen := tokens.filter fun token => !token.lexeme.isNewline
  match seen.find? fun token => token.lexeme.isEnd with
  | some token => token.place
  | none => (seen.getLast?.map Token.place).getD .start

/-- The clauses of a token list. -/
def ofTokens (tokens : List (Token ν)) : List (Clause ν) :=
  group (endPlace tokens) (content tokens)

end Clause

end StepSequencer
