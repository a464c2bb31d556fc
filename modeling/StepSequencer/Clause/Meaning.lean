import StepSequencer.Clause
import StepSequencer.Program
import StepSequencer.Steps

/-!
# What clauses mean

A clause stands for at most one statement. A missed operand is an error, and the statement is made
with a default in its place. Tempo and swing outside their range are moved to the nearest bound,
with a warning.
-/
namespace StepSequencer

namespace Slot

variable {α β : Type}

/-- The operand, or a default where it was missed. -/
def getD : Slot α → α → α
  | found value, _ => value
  | missed _ _, default => default

/-- The operand if it was found. -/
def get? : Slot α → Option α
  | found value => some value
  | missed _ _ => none

/-- The error of a missed operand. -/
def errors : Slot α → List Diagnostic
  | found _ => []
  | missed operand place => [.atPosition (.expected operand) place]

/-- Read the operand if it was found. -/
def mapM {ε : Type} (read : α → Except ε β) : Slot α → Except ε (Slot β)
  | found value => do return .found (← read value)
  | missed operand place => .ok (.missed operand place)

end Slot

namespace Member

/-- The assignment of an item, if it is one. -/
def assignment? : Member → Option Assignment
  | assign voice pattern => some ⟨voice, pattern.get?⟩
  | bare _ => none

/-- The errors of an item. -/
def errors : Member → List Diagnostic
  | assign _ pattern => pattern.errors
  | bare _ => []

end Member

namespace Clause

/-- Voice and parameter of a target. A dot in the first name separates the two, a second name is
the parameter, and a parameter that is not named is the gate. -/
def target (name : String) (second : Option String) : String × String :=
  let undotted := fun c => c != '.'
  let voice := name.toList.takeWhile undotted
  let part := ((name.toList.dropWhile undotted).drop 1).takeWhile undotted
  let parameter := if part.isEmpty then "gate" else String.ofList part
  (String.ofList voice, second.getD parameter)

/-- The statement of a clause. -/
def statement? : Clause Int → Option Statement
  | comment line text => some (.comment line text)
  | title line text => some (.title line (text.getD "Untitled"))
  | tempo line value => some (.tempo line (clamp tempoMin tempoMax (value.getD 120)))
  | swing line value => some (.swing line (clamp swingMin swingMax (value.getD 0)))
  | pattern line name text =>
    let text := text.getD ""
    some (.pattern ⟨name.getD "unnamed", text, Steps.decode text.toList, line⟩)
  | scene line name members =>
    some (.scene ⟨name.getD "a", members.filterMap Member.assignment?, line⟩)
  | play line name looped => some (.play line name looped)
  | stop line => some (.stop line)
  | param line place value =>
    let target := place.get?.map fun (name, second) => target name second
    some (.param line (target.map Prod.fst) (target.map Prod.snd) (value.getD 0))
  | poke line address value => some (.poke line (address.getD 0) (value.getD 0))
  | loop line count => some (.loop line (count.getD 1))
  | wait line steps => some (.wait line (steps.getD 16))
  | assign line voice name => some (.assign line ⟨voice, name.get?⟩)
  | unknown _ _ | bare _ _ | stray _ => none

/-- The errors of a clause, in the order of its operands. -/
def errors {ν : Type} : Clause ν → List Diagnostic
  | title _ text => text.errors
  | tempo _ value => value.errors
  | swing _ value => value.errors
  | pattern _ name text => name.errors ++ text.errors
  | scene _ name members => name.errors ++ members.flatMap Member.errors
  | param _ target value => target.errors ++ value.errors
  | poke _ address value => address.errors ++ value.errors
  | loop _ count => count.errors
  | wait _ steps => steps.errors
  | assign _ _ name => name.errors
  | unknown name place => [.atPosition (.unknownDirective name) place]
  | comment _ _ | play _ _ _ | stop _ | bare _ _ | stray _ => []

/-- The warnings of a clause. -/
def warnings : Clause Int → List Diagnostic
  | tempo line value =>
    let bpm := value.getD 120
    if tempoMin ≤ bpm ∧ bpm ≤ tempoMax then [] else [.atLine (.tempoOutOfRange bpm) line]
  | swing line value =>
    let percent := value.getD 0
    if swingMin ≤ percent ∧ percent ≤ swingMax then []
    else [.atLine (.swingOutOfRange percent) line]
  | pattern line name text =>
    let length := (text.getD "").length
    if length = 0 ∨ length = stepCount then []
    else [.atLine (.patternLength (name.getD "unnamed") length) line]
  | _ => []

/-- Read the numbers of a clause, from left to right. -/
def mapM {ν ε : Type} (read : ν → Except ε Int) : Clause ν → Except ε (Clause Int)
  | comment line text => .ok (.comment line text)
  | title line text => .ok (.title line text)
  | tempo line value => do return .tempo line (← value.mapM read)
  | swing line value => do return .swing line (← value.mapM read)
  | pattern line name text => .ok (.pattern line name text)
  | scene line name members => .ok (.scene line name members)
  | play line name looped => .ok (.play line name looped)
  | stop line => .ok (.stop line)
  | param line target value => do return .param line target (← value.mapM read)
  | poke line address value => do
    let address ← address.mapM read
    let value ← value.mapM read
    return .poke line address value
  | loop line count => do return .loop line (← count.mapM read)
  | wait line steps => do return .wait line (← steps.mapM read)
  | assign line voice name => .ok (.assign line voice name)
  | unknown name place => .ok (.unknown name place)
  | bare name place => .ok (.bare name place)
  | stray place => .ok (.stray place)

end Clause

/-- A program read from tokens, with what is wrong or doubtful about it. -/
structure Parse where
  program : Program
  errors : List Diagnostic
  warnings : List Diagnostic
deriving DecidableEq, Repr

namespace Parse

/-- The program of a list of clauses. -/
def ofClauses (clauses : List (Clause Int)) : Parse where
  program := ⟨clauses.filterMap Clause.statement?⟩
  errors := clauses.flatMap Clause.errors
  warnings := clauses.flatMap Clause.warnings

/-- The program of a token list. -/
def ofTokens (tokens : List (Token Int)) : Parse := ofClauses (Clause.ofTokens tokens)

/-- The program of a token list whose numbers are loose. Only numbers that are operands are read,
and the first that is no number stops the reading. -/
def ofLooseTokens (tokens : List (Token Json)) : Except NumeralFault Parse := do
  let clauses ← (Clause.ofTokens tokens).mapM (Clause.mapM Json.asNumber)
  return ofClauses clauses

end Parse

end StepSequencer
