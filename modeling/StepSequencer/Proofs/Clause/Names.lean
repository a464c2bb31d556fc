import StepSequencer.Clause.Meaning
import StepSequencer.Proofs.Token.Reading

/-!
# Names that are read

The patterns and scenes that a program asks for are asked for by names of tokens. Reading goes
through the tokens from left to right, so what is left behind a clause is a suffix of them, and a
program that was read from tokens without empty names asks for nothing by an empty name. The scanner
gives no empty names.
-/
namespace StepSequencer

/-- Tokens among which no name is empty. -/
def Token.Named {ν : Type} (tokens : List (Token ν)) : Prop :=
  ∀ token ∈ tokens, token.lexeme ≠ .identifier ""

/-- What follows tokens without empty names has none either. -/
theorem Token.Named.suffix {ν : Type} {tokens rest : List (Token ν)} (named : Named tokens)
    (ends : rest <:+ tokens) : Named rest :=
  fun token member => named token (ends.subset member)

/-- A statement that asks for no pattern and no scene by an empty name. -/
def Statement.Named : Statement → Prop
  | scene definition => ∀ assignment ∈ definition.assignments, assignment.pattern ≠ some ""
  | assign _ assignment => assignment.pattern ≠ some ""
  | play _ name _ => name ≠ some ""
  | _ => True

namespace Clause

variable {ν α : Type} (stop : Position) (tokens : List (Token ν))

/-! ### What is left of the tokens -/

/-- Taking an operand leaves an end of the tokens. -/
theorem take_suffix (accept : Lexeme ν → Option α) (operand : Operand) :
    (take accept operand stop tokens).2 <:+ tokens := by
  cases tokens with
  | nil => exact List.suffix_rfl
  | cons token rest =>
    rw [take]
    split
    · exact List.suffix_cons token rest
    · exact List.suffix_rfl

/-- Taking a name that may be absent leaves an end of the tokens. -/
theorem takeName?_suffix : (takeName? tokens).2 <:+ tokens := by
  cases tokens with
  | nil => exact List.suffix_rfl
  | cons token rest =>
    rw [takeName?]
    split
    · exact List.suffix_cons token rest
    · exact List.suffix_rfl

/-- Taking the items of a scene leaves an end of the tokens. -/
theorem takeMembers_suffix : (takeMembers stop tokens).2 <:+ tokens := by
  fun_induction takeMembers stop tokens with
  | case1 => exact List.suffix_rfl
  | case2 => exact List.suffix_rfl
  | case3 token rest name named colon pattern more ih =>
    have behind : rest.drop 1 <:+ token :: rest :=
      (List.drop_suffix 1 rest).trans (List.suffix_cons token rest)
    exact (ih.trans (take_suffix stop _ _ _)).trans behind
  | case4 token rest name named colon more ih => exact ih.trans (List.suffix_cons token rest)

/-- Taking the target of a parameter leaves an end of the tokens. -/
theorem takeTarget_suffix : (takeTarget stop tokens).2 <:+ tokens := by
  have first := take_suffix stop tokens Lexeme.name? .paramTarget
  rw [takeTarget]
  split
  · next name rest found =>
    rw [found] at first
    refine List.IsSuffix.trans ?_ first
    simp only [takeSecondName]
    split
    · exact List.suffix_rfl
    · exact takeName?_suffix rest
  · next found => rwa [found] at first

/-- Taking the word for a loop leaves an end of the tokens. -/
theorem takeLoop_suffix : (takeLoop tokens).2 <:+ tokens := by
  have first := takeName?_suffix tokens
  rw [takeLoop]
  split
  · next found => rwa [found] at first
  · exact List.suffix_rfl

/-- Reading behind a directive leaves an end of the tokens. -/
theorem ofDirective_suffix (line : Int) (directive : Directive) :
    (ofDirective stop line tokens directive).2 <:+ tokens := by
  cases directive with
  | title | tempo | swing | loop | wait => exact take_suffix stop tokens _ _
  | pattern | poke => exact (take_suffix stop _ _ _).trans (take_suffix stop tokens _ _)
  | scene => exact (takeMembers_suffix stop _).trans (take_suffix stop tokens _ _)
  | play => exact (takeLoop_suffix _).trans (takeName?_suffix tokens)
  | stop => exact List.suffix_rfl
  | param => exact (take_suffix stop _ _ _).trans (takeTarget_suffix stop tokens)

/-- Behind a clause there is a suffix of the tokens behind its first. -/
theorem read_suffix (token : Token ν) : (read stop token tokens).2 <:+ tokens := by
  rw [read]
  split
  · exact List.suffix_rfl
  · split
    · exact ofDirective_suffix stop tokens _ _
    · exact List.suffix_rfl
  · split
    · exact (take_suffix stop _ _ _).trans (List.drop_suffix 1 tokens)
    · exact List.suffix_rfl
  · exact List.suffix_rfl

/-! ### What is asked for -/

variable {tokens}

/-- A token that is no empty identifier has no empty name. -/
theorem name?_ne_empty {token : Token ν} (named : token.lexeme ≠ .identifier "") :
    token.lexeme.name? ≠ some "" := by
  cases lexeme : token.lexeme with
  | identifier name =>
    rintro same
    rw [lexeme, Option.some.inj same] at named
    exact named rfl
  | _ => exact (Option.some_ne_none "").symm

/-- A name that is taken is not empty. -/
theorem take_ne_empty (named : Token.Named tokens) (operand : Operand) :
    (take Lexeme.name? operand stop tokens).1.get? ≠ some "" := by
  cases tokens with
  | nil => exact (Option.some_ne_none "").symm
  | cons token rest =>
    have first := name?_ne_empty (named token List.mem_cons_self)
    rw [take]
    split
    · next name found => rwa [found] at first
    · exact (Option.some_ne_none "").symm

/-- A name that may be absent is not empty. -/
theorem takeName?_ne_empty (named : Token.Named tokens) : (takeName? tokens).1 ≠ some "" := by
  cases tokens with
  | nil => exact (Option.some_ne_none "").symm
  | cons token rest =>
    have first := name?_ne_empty (named token List.mem_cons_self)
    rw [takeName?]
    split
    · next name found => rwa [found] at first
    · exact (Option.some_ne_none "").symm

/-- The assignments of a scene. -/
theorem takeMembers_ne_empty (named : Token.Named tokens) :
    ∀ assignment ∈ (takeMembers stop tokens).1.filterMap Member.assignment?,
      assignment.pattern ≠ some "" := by
  fun_induction takeMembers stop tokens with
  | case1 => exact List.forall_mem_nil _
  | case2 => exact List.forall_mem_nil _
  | case3 token rest name found colon pattern more ih =>
    have behind : Token.Named (rest.drop 1) :=
      named.suffix ((List.drop_suffix 1 rest).trans (List.suffix_cons token rest))
    have later := ih (behind.suffix (take_suffix stop _ _ _))
    exact List.forall_mem_cons.mpr ⟨take_ne_empty stop behind .patternName, later⟩
  | case4 token rest name found colon more ih =>
    exact ih (named.suffix (List.suffix_cons token rest))

variable {tokens : List (Token Int)}

/-- A directive means a statement without empty names. -/
theorem ofDirective_named (named : Token.Named tokens) (line : Int) (directive : Directive)
    {statement : Statement}
    (read : (ofDirective stop line tokens directive).1.statement? = some statement) :
    statement.Named := by
  cases directive with
  | scene =>
    obtain rfl := Option.some.inj read
    exact takeMembers_ne_empty stop (named.suffix (take_suffix stop _ _ _))
  | play =>
    obtain rfl := Option.some.inj read
    exact takeName?_ne_empty named
  | _ =>
    obtain rfl := Option.some.inj read
    trivial

/-- A clause means a statement without empty names. -/
theorem read_named {token : Token Int} (named : Token.Named tokens) {statement : Statement}
    (found : (read stop token tokens).1.statement? = some statement) : statement.Named := by
  obtain ⟨lexeme, place⟩ := token
  cases lexeme with
  | comment text =>
    obtain rfl := Option.some.inj found
    trivial
  | directive name =>
    simp only [read] at found
    cases known : Directive.ofName? name with
    | none =>
      rw [known] at found
      contradiction
    | some directive =>
      rw [known] at found
      exact ofDirective_named stop named place.line directive found
  | identifier name =>
    simp only [read] at found
    split at found
    · obtain rfl := Option.some.inj found
      exact take_ne_empty stop (named.suffix (List.drop_suffix 1 tokens)) .patternName
    · contradiction
  | _ => contradiction

/-- All clauses mean statements without empty names. -/
theorem group_named (named : Token.Named tokens) :
    ∀ statement ∈ (group stop tokens).filterMap statement?, statement.Named := by
  fun_induction group stop tokens with
  | case1 => exact List.forall_mem_nil _
  | case2 token rest clause ih =>
    have behind := named.suffix (List.suffix_cons token rest)
    have later := ih (behind.suffix (read_suffix stop rest token))
    intro statement member
    obtain ⟨source, inside, found⟩ := List.mem_filterMap.mp member
    rcases List.mem_cons.mp inside with rfl | others
    · exact read_named stop behind found
    · exact later statement (List.mem_filterMap.mpr ⟨source, others, found⟩)

end Clause

/-- A program that was read from tokens without empty names asks for nothing by an empty name. -/
theorem Parse.named_ofTokens {tokens : List (Token Int)} (named : Token.Named tokens) :
    ∀ statement ∈ (ofTokens tokens).program.body, statement.Named := by
  refine Clause.group_named (Clause.endPlace tokens) fun token member => named token ?_
  exact (List.mem_filter.mp ((List.takeWhile_sublist _).subset member)).1

/-- The scanner gives no empty names. -/
theorem Token.named_scan (source : String) : Named (scan source).1 := by
  intro token member empty
  rcases lexeme_of_mem_scanFrom member with finish | ⟨c, cs, found⟩
  · rw [empty] at finish
    contradiction
  · rw [empty] at found
    obtain ⟨_, same⟩ := readFront_identifier found
    exact absurd (congrArg String.toList same) (by simp [lowerName])

end StepSequencer
