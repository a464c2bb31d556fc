import StepSequencer.Proofs.Clause.Relocation
import StepSequencer.Proofs.Token.Edge

/-!
# Scanning line by line

A line feed ends every word, so nothing that the scanner has seen of a line bears on the next one.
The tokens of two texts joined by a line feed are the tokens of the first, the line feed in the
place of its end, and the tokens of the second further down; open strings are found alike.
-/
namespace StepSequencer

/-- Everything moves down by a number of lines. -/
def Relocation.down (lines : Int) : Relocation where
  place position := ⟨position.line + lines, position.col⟩
  line number := number + lines
  line_place _ := rfl

namespace Position

/-- Walking commutes with moving down. -/
theorem step_down (lines : Int) (place : Position) (c : Char) :
    ((Relocation.down lines).place place).step c =
      (Relocation.down lines).place (place.step c) := by
  simp only [step, Relocation.down]
  split
  · congr 1
    dsimp only
    omega
  · rfl

/-- Text leads from a line further down to a place as much further down. -/
theorem after_down (lines : Int) (place : Position) (text : List Char) :
    ((Relocation.down lines).place place).after text =
      (Relocation.down lines).place (place.after text) := by
  induction text generalizing place with
  | nil => rfl
  | cons c text ih => rw [after_cons, after_cons, step_down, ih]

/-- Behind a text, the line has grown by the line feeds of the text. -/
theorem line_after (place : Position) (text : List Char) :
    (place.after text).line = place.line + text.count '\n' := by
  induction text generalizing place with
  | nil => simp
  | cons c text ih =>
    rw [after_cons, ih]
    by_cases feed : c = '\n'
    · subst feed
      rw [List.count_cons_self, step, if_pos rfl]
      dsimp only
      omega
    · rw [List.count_cons_of_ne feed, step, if_neg feed]

end Position

namespace Token

/-- The token of a front, if it has one. -/
def Front.tokens (front : Front) (place : Position) : List (Token Int) :=
  front.lexeme.toList.map fun lexeme => ⟨lexeme, place⟩

/-- The string that a front leaves open, found where reading stopped. -/
def Front.problems (front : Front) (place : Position) : List Diagnostic :=
  if front.closed then [] else [.atPosition .unterminatedString (place.after front.taken)]

/-- A text is scanned front by front. -/
theorem scanFrom_cons (place : Position) (c : Char) (cs : List Char) :
    scanFrom place (c :: cs) =
      ((readFront c cs).tokens place ++
          (scanFrom (place.after (readFront c cs).taken) (readFront c cs).rest).1,
        (readFront c cs).problems place ++
          (scanFrom (place.after (readFront c cs).taken) (readFront c cs).rest).2) := by
  rw [scanFrom]
  rfl

/-- A text further down has the same tokens and open strings further down. -/
theorem scanFrom_down (lines : Int) (place : Position) (text : List Char) :
    scanFrom ((Relocation.down lines).place place) text =
      Prod.map (List.map (Token.relocate (.down lines)))
        (List.map (Diagnostic.relocate (.down lines))) (scanFrom place text) := by
  fun_induction scanFrom place text with
  | case1 place => rw [scanFrom]; rfl
  | case2 place c cs front next tokens problems scanned ih =>
    have tokens : (readFront c cs).tokens ((Relocation.down lines).place place) =
        ((readFront c cs).tokens place).map (Token.relocate (.down lines)) := by
      rw [Front.tokens, Front.tokens, List.map_map]
      rfl
    have problems : (readFront c cs).problems ((Relocation.down lines).place place) =
        ((readFront c cs).problems place).map (Diagnostic.relocate (.down lines)) := by
      rw [Front.problems, Position.after_down, Front.problems]
      split <;> rfl
    rw [scanFrom_cons, tokens, problems, Position.after_down, ih]
    simp only [Prod.map_apply, List.map_append, scanned]
    rfl

/-- A front before a line feed is read as at the end of the text. -/
theorem readFront_feed (c : Char) (cs rest : List Char) :
    readFront c (cs ++ '\n' :: rest) =
      { readFront c cs with rest := (readFront c cs).rest ++ '\n' :: rest } := by
  obtain ⟨body, _, split, exchange⟩ := readFront_exchange c cs
  have ends : (readFront c cs).EndsBefore ((readFront c cs).rest ++ '\n' :: rest) := by
    cases behind : (readFront c cs).rest with
    | cons d others =>
      left
      rw [behind]
      rfl
    | nil =>
      right
      rw [behind]
      refine ⟨Text.stops_nil _, Text.stops_cons rest ?_⟩
      unfold Front.goesOn
      split <;> decide
  have whole : body ++ ((readFront c cs).rest ++ '\n' :: rest) = cs ++ '\n' :: rest := by
    rw [← List.append_assoc, ← split]
  rw [← whole]
  exact exchange _ ends

/-- The tokens of a text end behind the text. Where a line feed and another text follow, the line
feed stands in the place of that end, and the other text is scanned from the next line on. -/
theorem scanFrom_feed (place : Position) (text : List Char) :
    ∃ tokens, (scanFrom place text).1 = tokens ++ [⟨.endOfInput, place.after text⟩] ∧
      ∀ rest, scanFrom place (text ++ '\n' :: rest) =
        (tokens ++ ⟨.newline, place.after text⟩ ::
            (scanFrom ((place.after text).step '\n') rest).1,
          (scanFrom place text).2 ++ (scanFrom ((place.after text).step '\n') rest).2) := by
  fun_induction scanFrom place text with
  | case1 place =>
    refine ⟨[], rfl, fun rest => ?_⟩
    rw [List.nil_append, scanFrom_cons]
    rfl
  | case2 place c cs front next tokens problems scanned ih =>
    obtain ⟨others, split, joined⟩ := ih
    have walked : next.after front.rest = place.after (c :: cs) := by
      rw [← Position.after_append, (readFront_splits c cs).whole]
    rw [walked] at split joined
    rw [scanned] at split joined
    refine ⟨front.tokens place ++ others, ?_, fun rest => ?_⟩
    · rw [List.append_assoc, ← split]
      rfl
    · rw [List.cons_append, scanFrom_cons, readFront_feed]
      have later : scanFrom (place.after (readFront c cs).taken)
          ((readFront c cs).rest ++ '\n' :: rest) = _ := joined rest
      rw [later, List.append_assoc, List.append_assoc]
      rfl

/-- The tokens of two texts joined by a line feed: those of the first up to its end, the line feed
in the place of that end, and those of the second further down by all lines of the first. The
strings left open are those of the first and then those of the second, further down alike. -/
theorem scan_joined_lines (first second : String) :
    ∃ tokens place, (scan first).1 = tokens ++ [⟨.endOfInput, place⟩] ∧
      (scan (first ++ "\n" ++ second)).1 =
        tokens ++ ⟨.newline, place⟩ ::
          (scan second).1.map (Token.relocate (.down (1 + first.toList.count '\n'))) ∧
      (scan (first ++ "\n" ++ second)).2 =
        (scan first).2 ++
          (scan second).2.map (Diagnostic.relocate (.down (1 + first.toList.count '\n'))) := by
  have text : (first ++ "\n" ++ second).toList = first.toList ++ '\n' :: second.toList := by
    rw [String.toList_append, String.toList_append, List.append_assoc]
    rfl
  have below : (Position.start.after first.toList).step '\n' =
      (Relocation.down (1 + first.toList.count '\n')).place .start := by
    have line := Position.line_after .start first.toList
    rw [Position.step, if_pos rfl, line]
    simp only [Position.start, Relocation.down]
    congr 1
    omega
  obtain ⟨tokens, split, joined⟩ := scanFrom_feed .start first.toList
  have whole := joined second.toList
  rw [below, scanFrom_down, ← text] at whole
  refine ⟨tokens, _, split, ?_, ?_⟩
  · exact congrArg Prod.fst whole
  · exact congrArg Prod.snd whole

end Token
end StepSequencer
