import StepSequencer.Proofs.Token.Offsets

/-!
# Findings in the order of the text

Positions are ordered as the text is: by lines, and within a line by columns. `Spanned` says that
findings stand in this order between two positions; where one reader goes on behind another, so do
the findings of the one behind those of the other. The scanner walks forward only, so its tokens and
the strings that it leaves open are in the order of the text.
-/
namespace StepSequencer

namespace Position

/-- The order of the text. -/
instance : LE Position where
  le place other := place.line < other.line ∨ place.line = other.line ∧ place.col ≤ other.col

/-- A place is not behind another just if its line is before the other one, or its column is not
behind in the same line. -/
theorem le_iff {place other : Position} :
    place ≤ other ↔ place.line < other.line ∨ place.line = other.line ∧ place.col ≤ other.col :=
  Iff.rfl

/-- A place is not behind itself. -/
theorem le_refl (place : Position) : place ≤ place := .inr ⟨rfl, Int.le_refl _⟩

/-- The order of places is transitive. -/
theorem le_trans {place middle other : Position} (first : place ≤ middle)
    (second : middle ≤ other) : place ≤ other := by
  rw [le_iff] at first second ⊢
  omega

/-- A place that is not behind another is in no later line. -/
theorem line_le {place other : Position} (before : place ≤ other) : place.line ≤ other.line := by
  rw [le_iff] at before
  omega

/-- Walking goes forward. -/
theorem le_after (place : Position) (text : List Char) : place ≤ place.after text := by
  induction text generalizing place with
  | nil => exact le_refl place
  | cons c text ih =>
    have first : place ≤ place.step c := by
      rw [le_iff, step]
      split
      · exact .inl (Int.lt_succ _)
      · exact .inr ⟨rfl, Int.le_of_lt (Int.lt_succ _)⟩
    exact le_trans first (ih _)

/-- More of a text leads further. -/
theorem after_take_le (place : Position) (text : List Char) {first second : Nat}
    (before : first ≤ second) : place.after (text.take first) ≤ place.after (text.take second) := by
  have split : text.take second = text.take first ++ (text.drop first).take (second - first) := by
    rw [← List.take_add, Nat.add_sub_cancel' before]
  rw [split, after_append]
  exact le_after ..

end Position

namespace Diagnostic

/-- Two findings with lines, of which the second does not stand before the first: not in an earlier
line, and not in an earlier column of the same line if both have a column. -/
def Precedes (first second : Diagnostic) : Prop :=
  ∃ line other, first.line = some line ∧ second.line = some other ∧
    (line < other ∨ line = other ∧ ∀ col ∈ first.col, ∀ further ∈ second.col, col ≤ further)

/-- Findings with positions, in the order of the text and between two positions. -/
inductive Spanned : Position → Position → List Diagnostic → Prop where
  | nil {low high : Position} (through : low ≤ high) : Spanned low high []
  | cons {low place high : Position} (problem : Problem) {findings : List Diagnostic}
      (after : low ≤ place) (behind : Spanned place high findings) :
      Spanned low high (.atPosition problem place :: findings)

namespace Spanned

variable {low middle high : Position} {findings others : List Diagnostic}

/-- A finding between two places is in order. -/
theorem single (problem : Problem) {place : Position} (after : low ≤ place)
    (before : place ≤ high) : Spanned low high [.atPosition problem place] :=
  .cons problem after (.nil before)

/-- Findings behind a place are behind every earlier one. -/
theorem from_before (before : low ≤ middle) (spanned : Spanned middle high findings) :
    Spanned low high findings := by
  cases spanned with
  | nil through => exact .nil (Position.le_trans before through)
  | cons problem after behind => exact .cons problem (Position.le_trans before after) behind

/-- Findings up to a position and findings from there on. -/
theorem append (first : Spanned low middle findings) (second : Spanned middle high others) :
    Spanned low high (findings ++ others) := by
  induction first with
  | nil through => exact second.from_before through
  | cons problem after _ ih => exact .cons problem after (ih second)

/-- Findings between two places have places that are not before the first. -/
theorem low_le (spanned : Spanned low high findings) :
    ∀ finding ∈ findings, ∃ problem place, finding = .atPosition problem place ∧ low ≤ place := by
  induction spanned with
  | nil => exact List.forall_mem_nil _
  | cons problem after _ ih =>
    refine List.forall_mem_cons.mpr ⟨⟨problem, _, rfl, after⟩, fun finding member => ?_⟩
    obtain ⟨other, place, same, behind⟩ := ih finding member
    exact ⟨other, place, same, Position.le_trans after behind⟩

/-- Findings in order precede one another. -/
theorem pairwise (spanned : Spanned low high findings) : findings.Pairwise Precedes := by
  induction spanned with
  | nil => exact .nil
  | @cons low place high problem findings after behind ih =>
    refine List.pairwise_cons.mpr ⟨fun finding member => ?_, ih⟩
    obtain ⟨other, further, rfl, before⟩ := behind.low_le finding member
    refine ⟨_, _, rfl, rfl, ?_⟩
    rw [Position.le_iff] at before
    simpa [Diagnostic.atPosition] using before

end Spanned

end Diagnostic

namespace Token

/-- The tokens of a scan are in the order of the text. -/
theorem scanFrom_ordered (place : Position) (text : List Char) :
    ((scanFrom place text).1.map Token.place).Pairwise (· ≤ ·) := by
  obtain ⟨laid, same, whole⟩ := exists_laid place text
  have ordered := whole.ordered
  rw [List.pairwise_map] at ordered
  rw [← same, List.map_map, List.pairwise_map]
  refine ordered.imp_of_mem fun first second before => ?_
  show _ ≤ _
  rw [Function.comp_apply, Function.comp_apply, (whole.stands _ first).placed,
    (whole.stands _ second).placed]
  exact Position.after_take_le place text (Nat.le_of_lt before)

/-- Tokens and strings that are left open are placed behind a part of the text that was walked
over. -/
theorem scanFrom_walked (place : Position) (text : List Char) :
    (∀ token ∈ (scanFrom place text).1, ∃ seen, seen <+: text ∧ token.place = place.after seen) ∧
      ∀ problem ∈ (scanFrom place text).2, ∃ seen, seen <+: text ∧
        problem = .atPosition .unterminatedString (place.after seen) := by
  constructor
  · obtain ⟨laid, same, whole⟩ := exists_laid place text
    rw [← same]
    intro token member
    obtain ⟨entry, inside, rfl⟩ := List.mem_map.mp member
    exact ⟨_, List.take_prefix entry.2 text, (whole.stands entry inside).placed⟩
  · fun_induction scanFrom place text with
    | case1 place => exact List.forall_mem_nil _
    | case2 place c cs front next tokens problems scanned ih =>
      rw [scanned] at ih
      have split : front.taken ++ front.rest = c :: cs := (readFront_splits c cs).whole
      intro problem member
      rcases List.mem_append.mp member with here | more
      · split at here
        · contradiction
        · exact ⟨front.taken, ⟨front.rest, split⟩, List.mem_singleton.mp here⟩
      · obtain ⟨seen, start, found⟩ := ih problem more
        refine ⟨front.taken ++ seen, ?_, by rw [found, Position.after_append]⟩
        rw [← split]
        exact (List.prefix_append_right_inj front.taken).mpr start

/-- Strings that are left open are found in the order of the text. -/
theorem scanFrom_spanned (place : Position) (text : List Char) :
    Diagnostic.Spanned place (place.after text) (scanFrom place text).2 := by
  fun_induction scanFrom place text with
  | case1 place => exact .nil (Position.le_refl place)
  | case2 place c cs front next tokens problems scanned ih =>
    have walked : next.after front.rest = place.after (c :: cs) := by
      rw [← Position.after_append, (readFront_splits c cs).whole]
    rw [scanned, walked] at ih
    have here : place ≤ next := Position.le_after ..
    refine Diagnostic.Spanned.append ?_ ih
    split
    · exact .nil here
    · exact .single _ here (Position.le_refl next)

end Token
end StepSequencer
