import Mathlib.Data.List.Induction
import StepSequencer.Proofs.Token.Reflow

/-!
# Where tokens stand

A scan counts lines and columns while it walks. What it says of a token can be told from the text
alone: there is an offset at which the token is written, and the place of the token is the place of
that offset. The offsets grow from token to token, the line feeds among the tokens stand at all line
feeds of the text, and the end of input stands behind the text.
-/
namespace StepSequencer

/-- The line and the column behind a text: one more than its line feeds, and one more than the
characters behind the last of them. -/
theorem Position.after_start (text : List Char) :
    Position.start.after text =
      ⟨1 + text.count '\n', 1 + ((text.reverse.takeWhile fun c => c != '\n').length : Nat)⟩ := by
  induction text using List.reverseRec with
  | nil => rfl
  | append_singleton text c ih =>
    rw [after_append, ih, after_cons, after_nil, step, List.reverse_append, List.reverse_singleton,
      List.singleton_append, List.count_append]
    by_cases feed : c = '\n'
    · subst feed
      rw [if_pos rfl, List.takeWhile_cons_of_neg (by simp)]
      simp [Int.add_assoc]
    · rw [if_neg feed, List.takeWhile_cons_of_pos (by simpa using feed)]
      simp [feed, Int.add_assoc]

namespace Token

/-- How lexemes are written. -/
inductive Written : Lexeme Int → List Char → Prop where
  | newline : Written .newline ['\n']
  | colon : Written .colon [':']
  | comment {mark : Char} (body : List Char) (opens : mark = '#' ∨ mark = ';') :
      Written (.comment (String.ofList (Text.trim body))) (mark :: body)
  | directive {name : List Char} (named : ∀ c ∈ name, isNameChar c = true) :
      Written (.directive (lowerName name)) ('@' :: name)
  | identifier {c : Char} {name : List Char} (starts : isNameStart c = true)
      (named : ∀ d ∈ name, isNameChar d = true) :
      Written (.identifier (lowerName (c :: name))) (c :: name)
  | closed {quote : Char} (body : List Char) (quotes : quote = '"' ∨ quote = '\'') :
      Written (.string (String.ofList body)) (quote :: body ++ [quote])
  | unclosed {quote : Char} (body : List Char) (quotes : quote = '"' ∨ quote = '\'') :
      Written (.string (String.ofList body)) (quote :: body)
  | dollar {digits : List Char} (hex : ∀ c ∈ digits, Text.isHex c = true) :
      Written (.number (Text.ofHex digits)) ('$' :: digits)
  | marked {mark : Char} {digits : List Char} (marks : isHexMark mark = true)
      (hex : ∀ c ∈ digits, Text.isHex c = true) :
      Written (.number (Text.ofHex digits)) ('0' :: mark :: digits)
  | negative {digits : List Char} (decimal : ∀ c ∈ digits, Text.isDecimal c = true) :
      Written (.number (-(Text.ofDecimal digits : Int))) ('-' :: digits)
  | decimal {c : Char} {digits : List Char}
      (decimal : ∀ d ∈ c :: digits, Text.isDecimal d = true) :
      Written (.number (Text.ofDecimal (c :: digits))) (c :: digits)
  | endOfInput : Written .endOfInput []

/-! ### One word -/

/-- A front whose characters write its lexeme, if it has one. -/
def Front.Writes (front : Front) : Prop :=
  ∀ lexeme, front.lexeme = some lexeme → Written lexeme front.taken

/-- A choice between fronts writes its lexeme if both fronts do. -/
theorem Front.Writes.ite {condition : Prop} [Decidable condition] {yes no : Front}
    (first : condition → yes.Writes) (second : ¬condition → no.Writes) :
    (if condition then yes else no).Writes := by
  split
  · next holds => exact first holds
  · next fails => exact second fails

/-- A front that takes the characters of its lexeme writes it. -/
theorem Written.writes {lexeme : Lexeme Int} {taken : List Char} (written : Written lexeme taken)
    (rest : List Char) (closed : Bool) : Front.Writes ⟨some lexeme, taken, rest, closed⟩ := by
  intro found same
  rwa [← Option.some.inj same]

/-- A run writes its lexeme if the characters of the class do. -/
theorem writes_run {lexeme : List Char → Lexeme Int} {head : List Char} {inside : Char → Bool}
    {cs : List Char}
    (written : (∀ c ∈ cs.takeWhile inside, inside c = true) →
      Written (lexeme (cs.takeWhile inside)) (head ++ cs.takeWhile inside)) :
    (run lexeme head inside cs).Writes :=
  (written (List.all_eq_true.mp List.all_takeWhile)).writes _ _

/-- A string writes its text between quotes. -/
theorem writes_quotedRun {quote : Char} (quotes : quote = '"' ∨ quote = '\'') (cs : List Char) :
    (quotedRun quote cs).Writes := by
  unfold quotedRun
  dsimp only
  split
  · exact (Written.unclosed _ quotes).writes _ _
  · refine .ite (fun closes => ?_) fun _ => (Written.unclosed _ quotes).writes _ _
    rw [beq_iff_eq.mp closes]
    exact (Written.closed _ quotes).writes _ _

/-- The front of a text is written as what it is read as. -/
theorem writes_readFront (c : Char) (cs : List Char) : (readFront c cs).Writes := by
  unfold readFront
  refine .ite (fun feed => ?_) fun _ => ?_
  · rw [beq_iff_eq.mp feed]
    exact Written.newline.writes _ _
  refine .ite (fun opens => ?_) fun _ => ?_
  · exact writes_run fun _ => .comment _ (by simpa using opens)
  refine .ite (fun mark => ?_) fun _ => ?_
  · rw [beq_iff_eq.mp mark]
    exact writes_run fun named => .directive named
  refine .ite (fun quotes => writes_quotedRun (by simpa using quotes) cs) fun _ => ?_
  refine .ite (fun mark => ?_) fun _ => ?_
  · rw [beq_iff_eq.mp mark]
    exact writes_run fun hex => .dollar hex
  refine .ite (fun zero => ?_) fun _ => ?_
  · obtain ⟨first, second⟩ := Bool.and_eq_true_iff.mp zero
    rw [beq_iff_eq.mp first]
    cases cs with
    | nil => contradiction
    | cons mark cs => exact writes_run fun hex => .marked second hex
  refine .ite (fun minus => ?_) fun _ => ?_
  · rw [beq_iff_eq.mp (Bool.and_eq_true_iff.mp minus).1]
    exact writes_run fun decimal => .negative decimal
  refine .ite (fun digit => ?_) fun _ => ?_
  · exact writes_run fun others => .decimal (List.forall_mem_cons.mpr ⟨digit, others⟩)
  refine .ite (fun mark => ?_) fun _ => ?_
  · rw [beq_iff_eq.mp mark]
    exact Written.colon.writes _ _
  refine .ite (fun starts => ?_) fun _ => ?_
  · exact writes_run fun named => .identifier starts named
  · intro lexeme found
    contradiction

/-- Only a line feed is read as a line feed, and every line feed is. -/
theorem readFront_newline_iff (c : Char) (cs : List Char) :
    (readFront c cs).lexeme = some .newline ↔ c = '\n' := by
  constructor
  · intro found
    have written := writes_readFront c cs _ found
    have whole := (readFront_splits c cs).whole
    generalize (readFront c cs).taken = taken at written whole
    cases written
    exact (List.cons.inj whole).1.symm
  · rintro rfl
    rfl

/-- A word holds a line feed only if it is one. -/
theorem getElem?_taken_newline_iff (c : Char) (cs : List Char) (offset : Nat) :
    (readFront c cs).taken[offset]? = some '\n' ↔
      (readFront c cs).lexeme = some .newline ∧ offset = 0 := by
  rw [readFront_newline_iff]
  by_cases feed : c = '\n'
  · subst feed
    show ['\n'][offset]? = some '\n' ↔ _
    cases offset with
    | zero => simp
    | succ offset => simp
  · refine iff_of_false (fun found => ?_) fun both => feed both.1
    exact readFront_inline feed cs (List.mem_of_getElem? found)

/-! ### All words of a text -/

/-- A token that is written at an offset of a text, and whose place is that of the offset if the
text starts at `place`. -/
structure StandsAt (place : Position) (text : List Char) (token : Token Int) (offset : Nat) :
    Prop where
  placed : token.place = place.after (text.take offset)
  written : ∃ word, Written token.lexeme word ∧ word <+: text.drop offset

/-- Tokens with the offsets at which they stand in a text that starts at `place`: the offsets grow,
the line feeds stand at all line feeds of the text, and the end of input stands behind the text and
nowhere else. -/
structure Laid (place : Position) (text : List Char) (laid : List (Token Int × Nat)) : Prop where
  ordered : (laid.map Prod.snd).Pairwise (· < ·)
  stands : ∀ entry ∈ laid, StandsAt place text entry.1 entry.2
  feeds : ∀ offset, text[offset]? = some '\n' ↔ ∃ place, (⟨.newline, place⟩, offset) ∈ laid
  ends : ∃ front, laid = front ++ [(⟨.endOfInput, place.after text⟩, text.length)] ∧
    ∀ entry ∈ front, entry.1.lexeme ≠ .endOfInput

/-- A token stands further on in a text with a word before it. -/
theorem StandsAt.behind {place : Position} {word rest : List Char} {token : Token Int}
    {offset : Nat} (stands : StandsAt (place.after word) rest token offset) :
    StandsAt place (word ++ rest) token (word.length + offset) := by
  obtain ⟨placed, written⟩ := stands
  constructor
  · rw [placed, List.take_length_add_append, Position.after_append]
  · rwa [List.drop_length_add_append]

/-- An empty text holds the end of input and nothing else. -/
theorem laid_nil (place : Position) : Laid place [] [(⟨.endOfInput, place⟩, 0)] where
  ordered := List.pairwise_singleton ..
  stands := by
    intro entry member
    rw [List.mem_singleton.mp member]
    exact ⟨rfl, [], .endOfInput, List.nil_prefix⟩
  feeds offset := by simp
  ends := ⟨[], rfl, List.forall_mem_nil _⟩

variable {place : Position} {c : Char} {cs : List Char} {laid : List (Token Int × Nat)}

/-- The tokens of a front and of the text behind it, with the offsets in the whole text. -/
def Front.laidBefore (front : Front) (place : Position) (laid : List (Token Int × Nat)) :
    List (Token Int × Nat) :=
  (front.tokens place).map (fun token => (token, 0)) ++
    laid.map fun entry => (entry.1, front.taken.length + entry.2)

/-- The tokens of a text are the one at its front, at the offset 0, and those behind it, further
on. -/
theorem mem_laidBefore {front : Front} {entry : Token Int × Nat} :
    entry ∈ front.laidBefore place laid ↔
      (∃ lexeme, front.lexeme = some lexeme ∧ (⟨lexeme, place⟩, 0) = entry) ∨
        ∃ later ∈ laid, (later.1, front.taken.length + later.2) = entry := by
  simp [Front.laidBefore, Front.tokens]

/-- The token at the front of a text is before all others. -/
theorem ordered_laidBefore {front : Front} (some : front.taken ≠ [])
    (ordered : (laid.map Prod.snd).Pairwise (· < ·)) :
    ((front.laidBefore place laid).map Prod.snd).Pairwise (· < ·) := by
  have positive := List.length_pos_iff.mpr some
  have later : ((laid.map fun entry => (entry.1, front.taken.length + entry.2)).map
      Prod.snd).Pairwise (· < ·) := by
    rw [List.map_map, List.pairwise_map]
    rw [List.pairwise_map] at ordered
    exact ordered.imp fun before => Nat.add_lt_add_left before _
  rw [Front.laidBefore, Front.tokens]
  cases front.lexeme with
  | none => exact later
  | some lexeme =>
    refine List.pairwise_cons.mpr ⟨fun offset member => ?_, later⟩
    obtain ⟨entry, shifted, rfl⟩ := List.mem_map.mp member
    obtain ⟨first, _, rfl⟩ := List.mem_map.mp shifted
    show 0 < front.taken.length + first.2
    omega

/-- The tokens of a text are laid when those behind its first word are. -/
theorem Laid.step
    (behind : Laid (place.after (readFront c cs).taken) (readFront c cs).rest laid) :
    Laid place (c :: cs) ((readFront c cs).laidBefore place laid) := by
  have split := readFront_splits c cs
  have size : (readFront c cs).taken.length + (readFront c cs).rest.length = (c :: cs).length := by
    rw [← List.length_append, split.whole]
  refine ⟨ordered_laidBefore split.some behind.ordered, ?_, ?_, ?_⟩
  · intro entry member
    rcases mem_laidBefore.mp member with ⟨lexeme, found, rfl⟩ | ⟨later, inside, rfl⟩
    · refine ⟨rfl, _, writes_readFront c cs lexeme found, (readFront c cs).rest, split.whole⟩
    · have there := (behind.stands later inside).behind
      rwa [split.whole] at there
  · intro offset
    rw [← split.whole]
    by_cases within : offset < (readFront c cs).taken.length
    · rw [List.getElem?_append_left within, getElem?_taken_newline_iff]
      constructor
      · rintro ⟨feed, rfl⟩
        exact ⟨place, mem_laidBefore.mpr (.inl ⟨.newline, feed, rfl⟩)⟩
      · rintro ⟨there, member⟩
        rcases mem_laidBefore.mp member with ⟨lexeme, found, same⟩ | ⟨later, _, same⟩
        · obtain ⟨token, rfl⟩ := Prod.mk.inj same
          rw [← (Token.mk.inj token).1]
          exact ⟨found, rfl⟩
        · have beyond := (Prod.mk.inj same).2
          omega
    · obtain ⟨later, rfl⟩ := Nat.exists_eq_add_of_le (Nat.le_of_not_lt within)
      rw [List.getElem?_append_right (Nat.le_add_right ..), Nat.add_sub_cancel_left,
        behind.feeds later]
      refine exists_congr fun there => ?_
      rw [mem_laidBefore]
      constructor
      · exact fun member => .inr ⟨_, member, rfl⟩
      · rintro (⟨lexeme, found, same⟩ | ⟨entry, inside, same⟩)
        · have first := (Prod.mk.inj same).2
          have some := List.length_pos_iff.mpr split.some
          omega
        · obtain ⟨token, offset⟩ := Prod.mk.inj same
          obtain rfl : entry = (⟨.newline, there⟩, later) :=
            Prod.ext token (Nat.add_left_cancel offset)
          exact inside
  · obtain ⟨front, rfl, inner⟩ := behind.ends
    refine ⟨(readFront c cs).laidBefore place front, ?_, ?_⟩
    · rw [Front.laidBefore, Front.laidBefore, List.map_append, List.append_assoc,
        ← Position.after_append, split.whole, ← size]
      rfl
    · intro entry member
      rcases mem_laidBefore.mp member with ⟨lexeme, found, rfl⟩ | ⟨later, inside, rfl⟩
      · rintro rfl
        exact readFront_ne_endOfInput c cs found
      · exact inner later inside

/-- The tokens of a scan can be laid along its text. -/
theorem exists_laid (place : Position) (text : List Char) :
    ∃ laid, laid.map Prod.fst = (scanFrom place text).1 ∧ Laid place text laid := by
  fun_induction scanFrom place text with
  | case1 place => exact ⟨_, rfl, laid_nil place⟩
  | case2 place c cs front next tokens problems scanned ih =>
    obtain ⟨laid, same, behind⟩ := ih
    refine ⟨front.laidBefore place laid, ?_, behind.step⟩
    have same : laid.map Prod.fst = tokens := same.trans (congrArg Prod.fst scanned)
    show (front.laidBefore place laid).map Prod.fst = front.tokens place ++ tokens
    rw [Front.laidBefore, List.map_append, List.map_map, List.map_map, ← same]
    simp [Function.comp_def]

/-- The tokens of a source have offsets at which they are written. The offsets grow from token to
token. The line of a token is one more than the line feeds before its offset, and its column is one
more than the characters between the last of these and the offset. Line feeds stand among the tokens
at the offsets of all line feeds of the source and no others, and the end of input is the last
token, at the length of the source, and no other. -/
theorem scan_places (source : String) :
    ∃ laid : List (Token Int × Nat), laid.map Prod.fst = (scan source).1 ∧
      (laid.map Prod.snd).Pairwise (· < ·) ∧
      (∀ entry ∈ laid,
        let before := source.toList.take entry.2
        entry.1.place.line = 1 + before.count '\n' ∧
        entry.1.place.col = 1 + ((before.reverse.takeWhile fun c => c != '\n').length : Nat) ∧
        ∃ word, Written entry.1.lexeme word ∧ word <+: source.toList.drop entry.2) ∧
      (∀ offset, source.toList[offset]? = some '\n' ↔
        ∃ place, (⟨.newline, place⟩, offset) ∈ laid) ∧
      ∃ front place, laid = front ++ [(⟨.endOfInput, place⟩, source.toList.length)] ∧
        ∀ entry ∈ front, entry.1.lexeme ≠ .endOfInput := by
  obtain ⟨laid, same, whole⟩ := exists_laid .start source.toList
  obtain ⟨front, split, inner⟩ := whole.ends
  refine ⟨laid, same, whole.ordered, fun entry member => ?_, whole.feeds, front, _, split, inner⟩
  obtain ⟨placed, written⟩ := whole.stands entry member
  rw [placed, Position.after_start]
  exact ⟨rfl, rfl, written⟩

end Token
end StepSequencer
