import StepSequencer.Proofs.Clause.Names
import StepSequencer.Proofs.Clause.Relocation
import StepSequencer.Proofs.Program.Findings
import StepSequencer.Proofs.Token.Order

/-!
# Clauses in the order of the text

A missed operand is reported at the token that stands in its place, and that token stays where it is
for the next reader. So every reader reports between the token before which it starts and the token
before which it stops, and the errors of a program are in the order of the text. A clause has the
line of its first token, and so has its statement: warnings, which have a line only, are in the
order of the text because clauses are.
-/
namespace StepSequencer

open Diagnostic (Spanned)

namespace Clause

variable {ν α : Type} {stop : Position} {tokens rest : List (Token ν)}

/-- Tokens in the order of the text, all of them before the position `stop`. -/
def Ordered (stop : Position) (tokens : List (Token ν)) : Prop :=
  (tokens.map Token.place ++ [stop]).Pairwise (· ≤ ·)

/-- The place of the first of the tokens, or the position behind them. -/
def frontPlace (stop : Position) : List (Token ν) → Position
  | [] => stop
  | token :: _ => token.place

/-- An end of tokens in order is in order. -/
theorem Ordered.suffix (ordered : Ordered stop tokens) (ends : rest <:+ tokens) :
    Ordered stop rest := by
  obtain ⟨before, rfl⟩ := ends
  rw [Ordered, List.map_append, List.append_assoc] at ordered
  exact (List.pairwise_append.mp ordered).2.1

/-- The first of the tokens is not behind their end. -/
theorem Ordered.frontPlace_le_stop (ordered : Ordered stop tokens) :
    frontPlace stop tokens ≤ stop := by
  cases tokens with
  | nil => exact Position.le_refl stop
  | cons token rest =>
    have before := (List.pairwise_cons.mp ordered).1
    exact before stop (List.mem_append_right _ (List.mem_singleton_self stop))

/-- What is left of the tokens does not start before them. -/
theorem Ordered.frontPlace_le (ordered : Ordered stop tokens) (ends : rest <:+ tokens) :
    frontPlace stop tokens ≤ frontPlace stop rest := by
  cases tokens with
  | nil =>
    rw [List.suffix_nil.mp ends]
    exact Position.le_refl stop
  | cons token others =>
    rcases List.suffix_cons_iff.mp ends with rfl | ends
    · exact Position.le_refl token.place
    · have before := (List.pairwise_cons.mp ordered).1
      cases rest with
      | nil => exact ordered.frontPlace_le_stop
      | cons first rest =>
        have member : first ∈ others := ends.subset List.mem_cons_self
        exact before first.place (List.mem_append_left _ (List.mem_map_of_mem member))

/-! ### Errors of readers -/

/-- The error of an operand is between the tokens before and behind it. -/
theorem take_spanned (ordered : Ordered stop tokens) (accept : Lexeme ν → Option α)
    (operand : Operand) :
    Spanned (frontPlace stop tokens) (frontPlace stop (take accept operand stop tokens).2)
      (take accept operand stop tokens).1.errors := by
  have forward := ordered.frontPlace_le (take_suffix stop tokens accept operand)
  cases tokens with
  | nil => exact .single _ (Position.le_refl stop) (Position.le_refl stop)
  | cons token rest =>
    rw [take] at forward ⊢
    cases found : accept token.lexeme with
    | some value =>
      rw [found] at forward
      exact .nil forward
    | none => exact .single _ (Position.le_refl token.place) (Position.le_refl token.place)

/-- The errors of a scene are in order, and between the tokens before and behind its items. -/
theorem takeMembers_spanned (ordered : Ordered stop tokens) :
    Spanned (frontPlace stop tokens) (frontPlace stop (takeMembers stop tokens).2)
      ((takeMembers stop tokens).1.flatMap Member.errors) := by
  fun_induction takeMembers stop tokens with
  | case1 => exact .nil (Position.le_refl stop)
  | case2 token rest unnamed => exact .nil (Position.le_refl token.place)
  | case3 token rest name named colon pattern more ih =>
    have ends : rest.drop 1 <:+ token :: rest :=
      (List.drop_suffix 1 rest).trans (List.suffix_cons token rest)
    have behind := ordered.suffix ends
    have operand := take_spanned behind Lexeme.name? .patternName
    have later := ih (behind.suffix (take_suffix stop _ _ _))
    exact (operand.append later).from_before (ordered.frontPlace_le ends)
  | case4 token rest name named colon more ih =>
    have ends := List.suffix_cons token rest
    exact (ih (ordered.suffix ends)).from_before (ordered.frontPlace_le ends)

/-- The errors of a target are in order, and between the tokens before and behind it. -/
theorem takeTarget_spanned (ordered : Ordered stop tokens) :
    Spanned (frontPlace stop tokens) (frontPlace stop (takeTarget stop tokens).2)
      (takeTarget stop tokens).1.errors := by
  have forward := ordered.frontPlace_le (takeTarget_suffix stop tokens)
  have first := take_spanned ordered Lexeme.name? .paramTarget
  rw [takeTarget] at forward ⊢
  cases found : take Lexeme.name? .paramTarget stop tokens with
  | mk slot rest =>
    rw [found] at forward first
    cases slot with
    | found name => exact .nil forward
    | missed operand place => exact first

/-- The errors of a directive are in order, and between the tokens before and behind its
operands. -/
theorem ofDirective_spanned (ordered : Ordered stop tokens) (line : Int) (directive : Directive) :
    Spanned (frontPlace stop tokens) (frontPlace stop (ofDirective stop line tokens directive).2)
      (ofDirective stop line tokens directive).1.errors := by
  have behind (accept : Lexeme ν → Option String) (operand : Operand) :=
    ordered.suffix (take_suffix stop tokens accept operand)
  cases directive with
  | title | tempo | swing | loop | wait => exact take_spanned ordered _ _
  | pattern =>
    exact (take_spanned ordered _ _).append (take_spanned (behind _ _) _ _)
  | scene => exact (take_spanned ordered _ _).append (takeMembers_spanned (behind _ _))
  | play => exact .nil (ordered.frontPlace_le (ofDirective_suffix stop tokens line .play))
  | stop => exact .nil (Position.le_refl _)
  | param =>
    have later := ordered.suffix (takeTarget_suffix stop tokens)
    exact (takeTarget_spanned ordered).append (take_spanned later _ _)
  | poke =>
    have later := ordered.suffix (take_suffix stop tokens Lexeme.number? .address)
    exact (take_spanned ordered _ _).append (take_spanned later _ _)

/-- The errors of a clause are in order, and between its first token and what follows the clause. -/
theorem read_spanned {token : Token ν} (ordered : Ordered stop (token :: tokens)) :
    Spanned token.place (frontPlace stop (read stop token tokens).2)
      (read stop token tokens).1.errors := by
  have ends := List.suffix_cons token tokens
  have behind := ordered.suffix ends
  have next : token.place ≤ frontPlace stop tokens := ordered.frontPlace_le ends
  obtain ⟨lexeme, place⟩ := token
  cases lexeme with
  | directive name =>
    simp only [read]
    cases Directive.ofName? name with
    | some directive =>
      exact (ofDirective_spanned behind place.line directive).from_before next
    | none => exact .single _ (Position.le_refl place) next
  | identifier name =>
    simp only [read]
    split
    · have further := behind.suffix (List.drop_suffix 1 tokens)
      have operand := take_spanned further Lexeme.name? .patternName
      refine operand.from_before (Position.le_trans next ?_)
      exact behind.frontPlace_le (List.drop_suffix 1 tokens)
    · exact .nil next
  | _ => exact .nil next

/-- The errors of clauses are in the order of the text. -/
theorem group_spanned (ordered : Ordered stop tokens) :
    Spanned (frontPlace stop tokens) stop ((group stop tokens).flatMap errors) := by
  fun_induction group stop tokens with
  | case1 => exact .nil (Position.le_refl stop)
  | case2 token rest clause ih =>
    have ends := (read_suffix stop rest token).trans (List.suffix_cons token rest)
    exact (read_spanned ordered).append (ih (ordered.suffix ends))

/-! ### Lines of clauses -/

/-- A clause is on the line of its first token. -/
theorem read_line (stop : Position) (token : Token ν) (rest : List (Token ν)) :
    (read stop token rest).1.line = token.place.line := by
  obtain ⟨lexeme, place⟩ := token
  cases lexeme with
  | directive name =>
    simp only [read]
    cases Directive.ofName? name with
    | some directive => cases directive <;> rfl
    | none => rfl
  | identifier name =>
    simp only [read]
    split <;> rfl
  | _ => rfl

/-- Each clause has the line of a token of its own. -/
theorem map_line_group (stop : Position) (tokens : List (Token ν)) :
    ((group stop tokens).map line).Sublist (tokens.map fun token => token.place.line) := by
  fun_induction group stop tokens with
  | case1 => exact List.Sublist.refl []
  | case2 token rest clause ih =>
    rw [List.map_cons, List.map_cons, read_line]
    exact (ih.trans ((read_suffix stop rest token).sublist.map _)).cons_cons _

/-- The lines of clauses are in the order of the text. -/
theorem lines_ordered (ordered : Ordered stop tokens) :
    ((group stop tokens).map line).Pairwise (· ≤ ·) := by
  have places := (List.pairwise_append.mp ordered).1
  rw [List.pairwise_map] at places
  refine List.Pairwise.sublist (map_line_group stop tokens) ?_
  rw [List.pairwise_map]
  exact places.imp Position.line_le

/-- The lines of statements are in the order of the text. -/
theorem statement_lines_ordered {tokens : List (Token Int)} (ordered : Ordered stop tokens) :
    (((group stop tokens).filterMap statement?).map Statement.line).Pairwise (· ≤ ·) := by
  have clauses := lines_ordered ordered
  rw [List.pairwise_map] at clauses
  rw [List.pairwise_map, List.pairwise_filterMap]
  refine clauses.imp fun before statement stands other further => ?_
  rwa [Statement.line_of_clause stands, Statement.line_of_clause further]

/-- Line feeds apart, the tokens that can be part of a clause stand right before the end of
input. -/
theorem content_ends (ends : ∃ token ∈ tokens, token.lexeme.isEnd = true) :
    ∃ last rest, tokens.filter (fun token => !token.lexeme.isNewline) =
      content tokens ++ last :: rest ∧ endPlace tokens = last.place := by
  obtain ⟨last, found⟩ := find?_isEnd ends
  obtain ⟨ended, front, rest, whole, inner⟩ := List.find?_eq_some_iff_append.mp found
  have before : content tokens = front := by
    rw [content, whole, List.takeWhile_append_of_pos inner, List.takeWhile_cons_of_neg (by simpa),
      List.append_nil]
  refine ⟨last, rest, by rw [before, whole], ?_⟩
  simp only [endPlace, found]

/-- Of tokens in the order of the text, those that can be part of a clause are so, up to the end of
input. -/
theorem ordered_content (places : (tokens.map Token.place).Pairwise (· ≤ ·))
    (ends : ∃ token ∈ tokens, token.lexeme.isEnd = true) :
    Ordered (endPlace tokens) (content tokens) := by
  obtain ⟨last, rest, whole, stop⟩ := content_ends ends
  have seen : ((content tokens ++ last :: rest).map Token.place).Pairwise (· ≤ ·) := by
    rw [← whole]
    exact places.sublist (List.filter_sublist.map _)
  rw [List.map_append, List.map_cons] at seen
  rw [Ordered, stop]
  refine seen.sublist ((List.Sublist.refl _).append ?_)
  exact (List.nil_sublist _).cons_cons _

end Clause

end StepSequencer
